import TraceQ.Persistence.Models

/-! # Canonical bytes and message authentication codes

`backend/app/security/crypto.py`. AES-GCM and HMAC-SHA256, each under its configured key, are
parameters; the canonical content of an event stands for the plaintext, as it does for its hash.
-/
namespace TraceQ.Security
set_option autoImplicit false
set_option maxHeartbeats 250000

abbrev Bytes := List UInt8

/-! ## Timestamps -/

/-- A Python `datetime`: microseconds shown by its clock, and how far that clock is ahead of UTC. -/
structure Datetime where
  wall : ℤ
  offset : Option ℤ
deriving DecidableEq

/-- The instant meant; a `datetime` without offset is taken as UTC. -/
def Datetime.instant (value : Datetime) : Instant := value.wall - value.offset.getD 0

/-- How a `timestamptz` column reads in a session with time zone UTC. -/
def fromColumn (time : Instant) : Datetime := ⟨time, some 0⟩

@[simp] theorem instant_fromColumn (time : Instant) : (fromColumn time).instant = time := by
  simp [fromColumn, Datetime.instant]

/-- Year, month and day of a day counted from 1970-01-01. -/
def civil (days : ℤ) : ℤ × ℤ × ℤ :=
  let shifted := days + 719468
  let era := shifted / 146097
  let dayOfEra := shifted % 146097
  let yearOfEra := (dayOfEra - dayOfEra / 1460 + dayOfEra / 36524 - dayOfEra / 146096) / 365
  let dayOfYear := dayOfEra - (365 * yearOfEra + yearOfEra / 4 - yearOfEra / 100)
  let march := (5 * dayOfYear + 2) / 153
  let month := if march < 10 then march + 3 else march - 9
  (yearOfEra + era * 400 + if month ≤ 2 then 1 else 0, month, dayOfYear - (153 * march + 2) / 5 + 1)

def padded (width : ℕ) (value : ℤ) : String :=
  let digits := toString value.toNat
  String.ofList (List.replicate (width - digits.length) '0') ++ digits

/-- `isoformat_utc`: the UTC clock with microseconds and a trailing `Z`. -/
def isoformatUtc (value : Datetime) : String :=
  let seconds := value.instant / 1000000
  let date := civil (seconds / 86400)
  let time := seconds % 86400
  padded 4 date.1 ++ "-" ++ padded 2 date.2.1 ++ "-" ++ padded 2 date.2.2 ++ "T" ++
    padded 2 (time / 3600) ++ ":" ++ padded 2 (time / 60 % 60) ++ ":" ++ padded 2 (time % 60) ++
    "." ++ padded 6 (value.instant % 1000000) ++ "Z"

/-- Only the instant is written. -/
theorem isoformatUtc_congr {a b : Datetime} (h : a.instant = b.instant) :
    isoformatUtc a = isoformatUtc b := by
  rw [isoformatUtc, isoformatUtc, h]

example : isoformatUtc ⟨1709221500000123, some 10800000000⟩ = "2024-02-29T12:45:00.000123Z" := by
  decide +kernel

/-! ## Canonical JSON -/

/-- A character inside a JSON string, `ensure_ascii=False`. -/
def escapedChar (c : Char) : String :=
  if c = '"' then "\\\"" else if c = '\\' then "\\\\" else if c = '\n' then "\\n"
  else if c = '\r' then "\\r" else if c = '\t' then "\\t"
  else if c = Char.ofNat 8 then "\\b" else if c = Char.ofNat 12 then "\\f"
  else if c.toNat < 32 then
    "\\u00" ++ String.ofList [Nat.digitChar (c.toNat / 16), Nat.digitChar (c.toNat % 16)]
  else String.singleton c

def quoted (text : String) : String :=
  "\"" ++ String.join (text.toList.map escapedChar) ++ "\""

mutual
/-- `json.dumps` with compact separators; decimals are written as they were read. -/
def jsonText : Json → String
  | .null => "null"
  | .bool value => if value then "true" else "false"
  | .int value => toString value
  | .decimal token => token
  | .str text => quoted text
  | .arr values => "[" ++ ",".intercalate (jsonTexts values) ++ "]"
  | .obj fields => "\x7b" ++ ",".intercalate (fieldTexts fields) ++ "\x7d"
def jsonTexts : List Json → List String
  | [] => []
  | value :: rest => jsonText value :: jsonTexts rest
def fieldTexts : List (String × Json) → List String
  | [] => []
  | (key, value) :: rest => (quoted key ++ ":" ++ jsonText value) :: fieldTexts rest
end

def utf8 (text : String) : Bytes := text.toUTF8.data.toList

/-- `canonical_json_bytes`: keys sorted at every level. -/
def canonicalJsonBytes (value : Json) : Bytes := utf8 (jsonText value.canonical)

/-! ## Encryption and MACs -/

/-- The primitives under the configured keys, and the name of the AES key. -/
structure CryptoSettings where
  aesGcm : Bytes → ContentHash → Bytes → Bytes
  hmacSha256 : Bytes → Bytes
  aesKeyId : String

/-- The name of an event type. -/
def eventTypeOf : Payload → String
  | .itemRegistered _ => "item.registered"
  | .operationStarted _ => "operation.started"
  | .operationFinished _ => "operation.finished"
  | .inspectionResult _ => "inspection.result"
  | .machineState _ => "machine.state"
  | .operatorAction _ => "operator.action"
  | .controlDeviceInvalidated _ => "control_device.invalidated"

/-- `build_aad` of the profile `CLASSIC_V2`. -/
def buildAad (event : EventEnvelope) (occurredAt receivedAt : Datetime) (cryptoKeyId : String) : Bytes :=
  canonicalJsonBytes (.obj
    [("event_id", .str event.eventId),
      ("event_type", .str (eventTypeOf event.payload)),
      ("received_at", .str (isoformatUtc receivedAt)),
      ("schema_version", .str event.schemaVersion),
      ("source_id", .str event.source.sourceId),
      ("occurred_at", .str (isoformatUtc occurredAt)),
      ("item_id", (event.itemId.map Json.str).getD .null),
      ("crypto_key_id", .str cryptoKeyId),
      ("crypto_profile", .str "CLASSIC_V2")])

def integrityMetadata (event : EventEnvelope) (occurredAt receivedAt : Datetime)
    (integrityStreamId : String) (integritySeq : ℕ) : Bytes :=
  canonicalJsonBytes (.obj
    [("event_id", .str event.eventId),
      ("event_type", .str (eventTypeOf event.payload)),
      ("integrity_seq", .int integritySeq),
      ("integrity_stream_id", .str integrityStreamId),
      ("occurred_at", .str (isoformatUtc occurredAt)),
      ("received_at", .str (isoformatUtc receivedAt)),
      ("schema_version", .str event.schemaVersion),
      ("source_id", .str event.source.sourceId)])

/-- `value.to_bytes(width, "big")`. -/
def bigEndian : ℕ → ℕ → Bytes
  | 0, _ => []
  | width + 1, value => bigEndian width (value / 256) ++ [UInt8.ofNat (value % 256)]

/-- A field behind its length. -/
def framed (width : ℕ) (value : Bytes) : Bytes := bigEndian width value.length ++ value

def computeIntegrityMac (settings : CryptoSettings) (prevMac immutableMetadata ciphertext nonce : Bytes)
    (keyId : String) : Bytes :=
  settings.hmacSha256 (framed 4 prevMac ++ framed 4 immutableMetadata ++ framed 8 ciphertext ++
    framed 4 nonce ++ utf8 keyId)

end TraceQ.Security
