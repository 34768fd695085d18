import TraceQ.Ingestion.Appends
import TraceQ.Library.Base64
import TraceQ.Quality.Release
import TraceQ.Security.JsonText

/-! # Checkpoints of a stream

`create_classic_checkpoint` in `backend/app/security/checkpoints.py`: the number and the MAC of the last
event of a stream, signed. The endpoint that commits a checkpoint runs beside the calls of
`ingest_event`, so that the stream may have gone on when it is committed.
-/
namespace TraceQ.Security
open Tables HashChain Ingestion Transactions Quality
set_option autoImplicit false
set_option maxHeartbeats 250000

/-! ## Creating one -/

/-- A row of `integrity_checkpoints`. -/
structure IntegrityCheckpoint where
  streamType : String := "raw"
  streamId : String
  sequence : ℕ
  rootMac : Bytes
  cryptoProfileId : String := "CLASSIC_V1"
  classicSignature : Bytes
  pqSignature : Option Bytes := none

/-- What `load_pem_private_key` returns. -/
inductive PrivateKey where
  /-- ECDSA over SECP256R1: what it signs with some random bytes. -/
  | p256 (sign : Bytes → Bytes → Bytes)
  | other

structure CheckpointKeys where
  checkpointPrivateKeyPemB64 : Option String
  /-- `b64decode` and `load_pem_private_key`; `none` if one of them raises. -/
  loadPrivateKey : String → Option PrivateKey

inductive CheckpointFailure where
  | refused (error : Quality.TraceQError)
  /-- `binascii.Error` or `ValueError` of a key that cannot be read. -/
  | unreadableKey

def streamNotFound : Quality.TraceQError := ⟨"CHECKPOINT_STREAM_NOT_FOUND", "Integrity stream does not exist", 404⟩

def signingKeyUnavailable : Quality.TraceQError := ⟨"KEY_UNAVAILABLE", "Checkpoint signing key is unavailable", 503⟩

def unsupportedProfile : Quality.TraceQError :=
  ⟨"UNSUPPORTED_CRYPTO_PROFILE", "Checkpoint key must be ECDSA P-256", 422⟩

/-- `base64.b64encode(value).decode()`. -/
def b64encode (value : Bytes) : String := String.ofList (Base64.encode value)

/-- The bytes that are signed. -/
def checkpointPayload (streamId : String) (sequence : ℕ) (rootMac : Bytes) : Bytes :=
  canonicalJsonBytes (.obj
    [("stream_id", .str streamId),
      ("sequence", .int sequence),
      ("root_mac", .str (b64encode rootMac)),
      ("profile", .str "CLASSIC_V1")])

def createClassicCheckpoint (keys : CheckpointKeys) (heads : List StreamHead) (streamId : String)
    (random : Bytes) : Except CheckpointFailure IntegrityCheckpoint :=
  match headOf heads streamId with
  | none => .error (.refused streamNotFound)
  | some state =>
      if truthy keys.checkpointPrivateKeyPemB64 then
        match keys.loadPrivateKey (keys.checkpointPrivateKeyPemB64.getD "") with
        | none => .error .unreadableKey
        | some .other => .error (.refused unsupportedProfile)
        | some (.p256 sign) => .ok {
            streamId := streamId
            sequence := state.lastSeq
            rootMac := state.lastMac
            classicSignature := sign random (checkpointPayload streamId state.lastSeq state.lastMac) }
      else .error (.refused signingKeyUnavailable)

/-! ## Beside the calls of `ingest_event` -/

structure CheckedLedger where
  ledger : Ledger := {}
  checkpoints : List IntegrityCheckpoint := []

inductive Checking where
  | append (call : Append)
  | requested (streamId : String)
  /-- The checkpoint is added and waits for the commit. -/
  | added (checkpoint : IntegrityCheckpoint)

def Checking.append? : Checking → Option Append
  | .append call => some call
  | _ => none

/-- What the appends see of each other. -/
abbrev appendsOf (w : World CheckedLedger Checking) : World Ledger Append :=
  Protocol.view CheckedLedger.ledger Checking.append? w

theorem appendsOf_set (w : World CheckedLedger Checking) (i : ℕ) (l : Option Checking) :
    appendsOf (w.set i l) = (appendsOf w).set i (l.bind Checking.append?) :=
  Protocol.view_set w i l

section Protocol
variable (settings : CryptoSettings) (keys : CheckpointKeys)

inductive CheckingMoves (w : World CheckedLedger Checking) (i : ℕ) : Checking → Checking → Prop where
  | append (call call' : Append) (h : AppendMoves settings (appendsOf w) i call call') :
      CheckingMoves w i (.append call) (.append call')
  | signs (streamId : String) (random : Bytes) (checkpoint : IntegrityCheckpoint)
      (h : createClassicCheckpoint keys w.committed.ledger.heads streamId random = .ok checkpoint) :
      CheckingMoves w i (.requested streamId) (.added checkpoint)

inductive CheckingCommits (w : World CheckedLedger Checking) :
    Checking → CheckedLedger → Option Checking → Prop where
  | append (call : Append) (ledger : Ledger) (next : Option Append)
      (h : AppendCommits (appendsOf w) call ledger next) :
      CheckingCommits w (.append call) { w.committed with ledger := ledger } (next.map .append)
  | checkpoint (checkpoint : IntegrityCheckpoint) :
      CheckingCommits w (.added checkpoint)
        { w.committed with checkpoints := w.committed.checkpoints ++ [checkpoint] } none

def checking : Protocol CheckedLedger Checking where
  begins l := (∃ call, l = .append (.begun call)) ∨ ∃ streamId, l = .requested streamId
  moves := CheckingMoves settings keys
  commits w _ := CheckingCommits w
  rollsBack _ := True

end Protocol

/-! ## What a checkpoint is of -/

theorem b64encode_injective : Function.Injective b64encode := by
  intro a b h
  exact Base64.encode_injective (String.ofList_injective h)

/-- What is signed says of which stream, up to which event and which MAC. -/
theorem checkpointPayload_determines {streamId streamId' : String} {sequence sequence' : ℕ}
    {rootMac rootMac' : Bytes}
    (h : checkpointPayload streamId sequence rootMac = checkpointPayload streamId' sequence' rootMac') :
    streamId = streamId' ∧ sequence = sequence' ∧ rootMac = rootMac' := by
  have hwell : ∀ streamId sequence rootMac, (Json.obj
      [("stream_id", .str streamId), ("sequence", .int sequence), ("root_mac", .str (b64encode rootMac)),
        ("profile", .str "CLASSIC_V1")]).WellFormed := by
    intro streamId sequence rootMac
    exact ⟨by simp, trivial, trivial, trivial, trivial, trivial⟩
  have hvalue := (canonicalJsonBytes_eq_iff (hwell ..) (hwell ..)).mp h
  simp only [Json.value, JsonValue.obj.injEq] at hvalue
  have hstream := congrFun hvalue "stream_id"
  have hsequence := congrFun hvalue "sequence"
  have hroot := congrFun hvalue "root_mac"
  simp [Json.valueAt, Json.value] at hstream hsequence hroot
  exact ⟨hstream, hsequence, b64encode_injective hroot⟩

theorem createClassicCheckpoint_ok {keys : CheckpointKeys} {heads : List StreamHead} {streamId : String}
    {random : Bytes} {checkpoint : IntegrityCheckpoint} :
    createClassicCheckpoint keys heads streamId random = .ok checkpoint ↔
      ∃ state sign, headOf heads streamId = some state ∧ truthy keys.checkpointPrivateKeyPemB64 = true ∧
        keys.loadPrivateKey (keys.checkpointPrivateKeyPemB64.getD "") = some (.p256 sign) ∧
        checkpoint = {
          streamId := streamId, sequence := state.lastSeq, rootMac := state.lastMac
          classicSignature := sign random (checkpointPayload streamId state.lastSeq state.lastMac) } := by
  unfold createClassicCheckpoint
  cases headOf heads streamId with
  | none => simp
  | some state =>
    cases truthy keys.checkpointPrivateKeyPemB64 with
    | false => simp
    | true =>
      cases keys.loadPrivateKey (keys.checkpointPrivateKeyPemB64.getD "") with
      | none => simp
      | some key =>
        cases key with
        | other => simp
        | p256 sign => simp [eq_comm]

end TraceQ.Security
