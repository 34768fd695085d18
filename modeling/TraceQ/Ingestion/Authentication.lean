import TraceQ.Domain.Validation
import TraceQ.Ingestion.Appends

/-! # Authenticating a source

`_authenticate_source` and `record_rejected_attempt` in `backend/app/ingestion/service.py`, on the
tables of the ingestion. A call reads the clock once.
-/
namespace TraceQ.Ingestion
open Projections Security Tables
set_option autoImplicit false
set_option maxHeartbeats 250000

/-! ## Tables -/

inductive SourceStatus where
  | active | suspended | revoked | expired
deriving DecidableEq, Repr

inductive AuthMethod where
  | sharedSecretLegacy | hmacV1
deriving DecidableEq, Repr

structure EventSource where
  sourceId : String
  sourceType : String
  enabled : Bool := true
  status : SourceStatus := .active
  authMethod : AuthMethod := .sharedSecretLegacy
  tokenHash : Option String := none
  allowedEventTypes : List String := []
  allowedLineIds : List String := []
  allowedStationIds : List String := []
  validFrom : Option Instant := none
  validTo : Option Instant := none
  revokedAt : Option Instant := none
  lastSourceSequence : Option ℕ := none
deriving DecidableEq

structure TransportNonce where
  sourceId : String
  nonce : String
  timestamp : Instant
deriving DecidableEq

inductive AttemptStatus where
  | accepted | duplicate | conflict | rejected
deriving DecidableEq, Repr

structure IngestAttempt where
  sourceId : Option String
  claimedEventId : Option String
  status : AttemptStatus
  errorCode : Option String := none
  rawEventId : Option String := none
  payloadHash : Option ContentHash := none
  /-- `safe_error_details`. -/
  message : Option String := none
deriving DecidableEq

/-- The committed rows. The columns that seal an event and the last MAC of a stream stand beside the
rows of the database they belong to. -/
structure Store where
  db : Database := {}
  sealed : List SealedEvent := []
  lastMac : String → Bytes := fun _ => []
  sources : List EventSource := []
  nonces : List TransportNonce := []
  attempts : List IngestAttempt := []
  alerts : List SecurityAlert := []

/-! ## Settings and calls -/

/-- The configured keys and the library functions of the ingestion. -/
structure Gateway where
  reading : Reading
  crypto : CryptoSettings
  tokenHash : String → String
  /-- `datetime.fromtimestamp(float(value))`, if it raises no `ValueError` or `OverflowError`. -/
  fromTimestamp : String → Option Datetime
  /-- `datetime.fromisoformat(value)`. -/
  fromIsoformat : String → Option Datetime
  timestampTolerance : ℤ
  /-- `_hmac_secret`. -/
  hmacSecret : String → Option String
  /-- The hexadecimal HMAC under a secret. -/
  hexdigest : String → Bytes → String
  /-- `str` of a value that is no string. -/
  str : Json → String

structure IngestCall where
  value : Json
  headerSourceId : Option String
  sourceToken : Option String := none
  sourceTimestamp : Option String := none
  sourceNonce : Option String := none
  sourceSignature : Option String := none
  now : Instant
  /-- `os.urandom(12)`. -/
  aesNonce : Bytes

/-! ## Authentication -/

def authRequired (message : String) : TraceQError := ⟨"SOURCE_AUTH_REQUIRED", message, 401⟩

def invalidCredentials : TraceQError :=
  ⟨"INVALID_SOURCE_CREDENTIALS", "Source credentials are invalid", 401⟩

def authFailed (message : String) : TraceQError := ⟨"SOURCE_AUTH_FAILED", message, 401⟩

def replayAttempt : TraceQError := ⟨"REPLAY_ATTEMPT", "Transport nonce has already been used", 409⟩

def keyUnavailable : TraceQError := ⟨"KEY_UNAVAILABLE", "Source authentication key is unavailable", 503⟩

/-- `value.replace(old, "", 1)` of one character. -/
def removeFirst (old : Char) (value : String) : String := String.ofList (value.toList.erase old)

/-- `value.isdigit()`. -/
def isDigits (value : String) : Bool := !value.isEmpty && value.toList.all Char.isDigit

def parseTransportTime (g : Gateway) (value : String) : Option Instant :=
  let parsed := if isDigits (removeFirst '.' value) then g.fromTimestamp value
    else g.fromIsoformat (value.replace "Z" "+00:00")
  parsed.map Datetime.instant

def EventSource.usable (source : EventSource) (now : Instant) : Bool :=
  source.enabled && decide (source.status = .active) && source.revokedAt.isNone &&
    (source.validFrom.all fun start => decide (start ≤ now)) &&
    (source.validTo.all fun stop => decide (now < stop))

/-- The bytes a source signs. -/
def signedBytes (timestamp nonce : String) (body : Json) : Bytes :=
  utf8 timestamp ++ [10] ++ utf8 nonce ++ [10] ++ canonicalJsonBytes body

def findSource (s : Store) (sourceId : String) : Option EventSource :=
  s.sources.find? fun source => decide (source.sourceId = sourceId)

def usedNonce (s : Store) (sourceId nonce : String) : Bool :=
  s.nonces.any fun used => decide (used.sourceId = sourceId ∧ used.nonce = nonce)

section Authenticate
variable (g : Gateway) (s : Store) (call : IngestCall)

/-- The `HMAC_V1` part. The nonce is committed; a replay commits an alert. -/
def authenticateHmac (source : EventSource) : Store × Except Raised EventSource :=
  match pyOr call.sourceTimestamp none, pyOr call.sourceNonce none, pyOr call.sourceSignature none with
  | some timestamp, some nonce, some signature =>
      match parseTransportTime g timestamp with
      | none => (s, .error (.refused (authFailed "Invalid source timestamp")))
      | some transportTime =>
          if g.timestampTolerance < |call.now - transportTime| then
            (s, .error (.refused (authFailed "Source timestamp is outside the accepted window")))
          else if usedNonce s source.sourceId nonce then
            ({ s with
                alerts := s.alerts ++
                  [{ alertType := .replayAttempt, sourceId := some source.sourceId }] },
              .error (.refused replayAttempt))
          else match pyOr (g.hmacSecret source.sourceId) none with
            | none => (s, .error (.refused keyUnavailable))
            | some secret =>
                if signature.toList.any fun c => 127 < c.toNat then (s, .error (.crashed .typeError))
                else if g.hexdigest secret (signedBytes timestamp nonce call.value) ≠ signature.toLower then
                  (s, .error (.refused (authFailed "Source signature is invalid")))
                else if 128 < nonce.length then (s, .error (.crashed .dataError))
                else
                  ({ s with nonces := s.nonces ++ [⟨source.sourceId, nonce, transportTime⟩] },
                    .ok source)
  | _, _, _ => (s, .error (.refused (authRequired "HMAC source headers are required")))

def authenticateSource : Store × Except Raised EventSource :=
  match pyOr call.headerSourceId none with
  | none => (s, .error (.refused (authRequired "Source credentials are required")))
  | some sourceId =>
      match findSource s sourceId with
      | none => (s, .error (.refused invalidCredentials))
      | some source =>
          if source.usable call.now = false then (s, .error (.refused invalidCredentials))
          else match source.authMethod with
            | .hmacV1 => authenticateHmac g s call source
            | .sharedSecretLegacy =>
                match pyOr call.sourceToken none, pyOr source.tokenHash none with
                | some token, some hash =>
                    if hash = g.tokenHash token then (s, .ok source)
                    else (s, .error (.refused invalidCredentials))
                | _, _ => (s, .error (.refused invalidCredentials))

end Authenticate

/-! ## Rejected attempts -/

/-- A text column or `jsonb` value takes it: no NUL. -/
def storable (value : String) : Bool := !value.toList.contains (Char.ofNat 0)

def firstChars (n : ℕ) (value : String) : String := String.ofList (value.toList.take n)

/-- `str(claimed_id)[:128] if claimed_id else None`. -/
def claimedEventId (g : Gateway) : Json → Option String
  | .obj fields =>
      let claimed := getField fields "event_id"
      if claimed.truthy g.reading then
        some (firstChars 128 (match claimed with
          | .str value => value
          | value => g.str value))
      else none
  | _ => none

/-- `alert_map`. -/
def alertMap : List (String × AlertType) :=
  [("REPLAY_ATTEMPT", .replayAttempt), ("SOURCE_AUTH_FAILED", .sourceAuthFailed),
    ("INVALID_SOURCE_CREDENTIALS", .sourceAuthFailed),
    ("SOURCE_SCOPE_VIOLATION", .sourceScopeViolation), ("EVENT_ID_CONFLICT", .eventIdConflict),
    ("KEY_UNAVAILABLE", .keyUnavailable)]

/-- The attempt of a refused call. -/
def rejectedAttempt (sourceId claimed : Option String) (error : TraceQError) : IngestAttempt where
  sourceId := sourceId
  claimedEventId := claimed
  status := .rejected
  errorCode := some error.code
  message := some (firstChars 1000 error.message)

def rejectedAlerts (sourceId claimed : Option String) (error : TraceQError) : List SecurityAlert :=
  (alertMap.lookup error.code).toList.map fun alertType =>
    { alertType := alertType, sourceId := sourceId, targetId := claimed }

/-- Whether the columns take the attempt. -/
def recordable (sourceId claimed : Option String) (error : TraceQError) : Bool :=
  (sourceId.all fun id => storable id && decide (id.length ≤ 128)) && claimed.all storable &&
    storable (firstChars 1000 error.message)

def recordRejectedAttempt (s : Store) (sourceId claimed : Option String) (error : TraceQError) :
    Store × Raised :=
  if recordable sourceId claimed error then
    ({ s with
        attempts := s.attempts ++ [rejectedAttempt sourceId claimed error]
        alerts := s.alerts ++ rejectedAlerts sourceId claimed error }, .refused error)
  else (s, .crashed .dataError)

end TraceQ.Ingestion
