import TraceQ.Api.Nonconformances
import TraceQ.Ingestion.Requests

/-! # Event sources under administration

`create_source` and `patch_source` in `backend/app/api/admin.py` beside the requests of the sources, under
READ COMMITTED. An `UPDATE` writes the columns in which the row the handler loaded differs from the request,
and waits while a request holds the row locked. The log has the changes and the accepted events in the
order of their commits.
-/
namespace TraceQ.Api
open Ingestion Tables Transactions Security
set_option autoImplicit false
set_option maxHeartbeats 250000

/-! ## Requests -/

/-- `SUPPORTED_EVENT_TYPES`. -/
def supportedEventTypes : List String := schemaRegistry.map (·.1)

def idCharacter (c : Char) : Bool := c.isAlphanum || ['_', '.', ':', '-'].contains c

structure SourceCreate where
  sourceId : String
  sourceType : String
  allowedEventTypes : List String
  token : Option String := none
  authMethod : AuthMethod := .sharedSecretLegacy
  allowedLineIds : List String := []
  allowedStationIds : List String := []
  sourceId_length : 1 ≤ sourceId.length ∧ sourceId.length ≤ 128 := by decide
  sourceId_pattern : sourceId.toList.all idCharacter = true := by decide
  sourceType_length : 1 ≤ sourceType.length ∧ sourceType.length ≤ 64 := by decide
  min_length : allowedEventTypes ≠ [] := by decide
  token_length : ∀ text ∈ token, 24 ≤ text.length ∧ text.length ≤ 512 := by decide
  /-- `_known`. -/
  known : ∀ eventType ∈ allowedEventTypes, eventType ∈ supportedEventTypes := by decide

structure SourcePatch where
  enabled : Option Bool := none
  allowedEventTypes : Option (List String) := none
  status : Option SourceStatus := none
  allowedLineIds : Option (List String) := none
  allowedStationIds : Option (List String) := none
  min_length : ∀ values ∈ allowedEventTypes, values ≠ [] := by decide
  /-- `_known`. -/
  known : ∀ values ∈ allowedEventTypes, ∀ eventType ∈ values, eventType ∈ supportedEventTypes := by decide

/-- `sorted(set(values))`. -/
def sortedSet (values : List String) : List String := values.dedup.insertionSort fun a b => a ≤ b

/-! ## Rows -/

/-- Columns and the values they get. -/
structure SourceChanges where
  enabled : Option Bool := none
  allowedEventTypes : Option (List String) := none
  status : Option SourceStatus := none
  allowedLineIds : Option (List String) := none
  allowedStationIds : Option (List String) := none
deriving DecidableEq

def SourceChanges.apply (changes : SourceChanges) (row : EventSource) : EventSource :=
  { row with
    enabled := changes.enabled.getD row.enabled
    allowedEventTypes := changes.allowedEventTypes.getD row.allowedEventTypes
    status := changes.status.getD row.status
    allowedLineIds := changes.allowedLineIds.getD row.allowedLineIds
    allowedStationIds := changes.allowedStationIds.getD row.allowedStationIds }

/-- What `patch_source` assigns. -/
def SourcePatch.assigned (body : SourcePatch) : SourceChanges where
  enabled := body.enabled
  allowedEventTypes := body.allowedEventTypes.map sortedSet
  status := body.status
  allowedLineIds := body.allowedLineIds.map sortedSet
  allowedStationIds := body.allowedStationIds.map sortedSet

/-- The columns in which the loaded row differs from what is assigned. -/
def changesOf (loaded : EventSource) (body : SourcePatch) : SourceChanges where
  enabled := body.assigned.enabled.filter fun value => decide (value ≠ loaded.enabled)
  allowedEventTypes :=
    body.assigned.allowedEventTypes.filter fun value => decide (value ≠ loaded.allowedEventTypes)
  status := body.assigned.status.filter fun value => decide (value ≠ loaded.status)
  allowedLineIds := body.assigned.allowedLineIds.filter fun value => decide (value ≠ loaded.allowedLineIds)
  allowedStationIds :=
    body.assigned.allowedStationIds.filter fun value => decide (value ≠ loaded.allowedStationIds)

/-- The row of a new source; `random` is `secrets.token_urlsafe(36)`. -/
def createdSource (tokenHash : String → String) (body : SourceCreate) (random : String) : EventSource where
  sourceId := body.sourceId
  sourceType := body.sourceType
  enabled := true
  tokenHash := some (tokenHash ((pyOr body.token none).getD random))
  status := .active
  authMethod := body.authMethod
  allowedEventTypes := sortedSet body.allowedEventTypes
  allowedLineIds := sortedSet body.allowedLineIds
  allowedStationIds := sortedSet body.allowedStationIds

def sourceExists : Quality.TraceQError := ⟨"SOURCE_EXISTS", "Source ID already exists", 409⟩

/-! ## Steps -/

inductive LogEntry where
  | created (row : EventSource)
  | patched (sourceId : String) (changes : SourceChanges)
  | accepted (source : EventSource) (event : EventEnvelope) (now : Instant)

structure Administered where
  passed : Passed
  log : List LogEntry := []

abbrev Administered.sources (s : Administered) : List EventSource := s.passed.store.sources

inductive Administration where
  | request (l : RequestTransaction)
  | patch (sourceId : String) (body : SourcePatch)
  /-- The `UPDATE` waits for the commit. -/
  | patching (sourceId : String) (changes : SourceChanges)
  | create (body : SourceCreate) (random : String)
  | creating (row : EventSource)
  /-- The refusal of an endpoint. -/
  | refused (error : Quality.TraceQError)

def Administration.request? : Administration → Option RequestTransaction
  | .request l => some l
  | _ => none

def Administration.locksSource : Administration → Option String
  | .request l => l.locksSource
  | _ => none

abbrev AdminWorld := World Administered Administration

/-- What the requests see of each other. -/
abbrev requestsOf (w : AdminWorld) : RequestWorld :=
  Protocol.view Administered.passed Administration.request? w

/-- Nothing else has the row locked. -/
def Unlocked (w : AdminWorld) (i : ℕ) (sourceId : String) : Prop :=
  w.Others i fun m => m.locksSource ≠ some sourceId

section Protocol
variable (g : Gateway)

/-- The sources after the rest of a call: an unchanged `last_source_sequence` is not written. -/
def settledSources (store : Store) (source : EventSource) (event : EventEnvelope) (after : Store) :
    List EventSource :=
  if event.source.sequence.map (trackedSequence source) = source.lastSourceSequence then store.sources
  else after.sources

/-- What the rest of an authenticated call leaves. -/
def settled (store : Store) (source : EventSource) (incoming : IncomingEvent) (call : IngestCall) : Store :=
  let after := (ingestAdmitted g store source incoming call).1
  { after with sources := settledSources store source incoming.event after }

def acceptedEntry (store : Store) (source : EventSource) (incoming : IncomingEvent) (call : IngestCall) :
    List LogEntry :=
  match (ingestAdmitted g store source incoming call).2 with
  | .ok answer =>
      if answer.result.ingestionStatus = .accepted then [.accepted source incoming.event call.now] else []
  | .error _ => []

inductive AdminMoves (w : AdminWorld) (i : ℕ) : Administration → Administration → Prop where
  | request (l l' : RequestTransaction) (h : RequestMoves g (requestsOf w) i l l') :
      AdminMoves w i (.request l) (.request l')
  | loadsPatch (sourceId : String) (body : SourcePatch) (loaded : EventSource)
      (hfound : findSource w.committed.passed.store sourceId = some loaded) :
      AdminMoves w i (.patch sourceId body) (.patching sourceId (changesOf loaded body))
  | noSource (sourceId : String) (body : SourcePatch)
      (hnone : findSource w.committed.passed.store sourceId = none) :
      AdminMoves w i (.patch sourceId body) (.refused (notFound "Source"))
  | prepares (body : SourceCreate) (random : String)
      (hnone : findSource w.committed.passed.store body.sourceId = none) :
      AdminMoves w i (.create body random) (.creating (createdSource g.tokenHash body random))
  | exists (body : SourceCreate) (random : String) (found : EventSource)
      (hfound : findSource w.committed.passed.store body.sourceId = some found) :
      AdminMoves w i (.create body random) (.refused sourceExists)

inductive AdminCommits (w : AdminWorld) (i : ℕ) :
    Administration → Administered → Option Administration → Prop where
  /-- The commits of `_authenticate_source` and of a refusal. -/
  | request (l : RequestTransaction) (passed : Passed) (next : Option RequestTransaction)
      (h : RequestCommits g (requestsOf w) i l passed next)
      (hbefore : ∀ call source, l ≠ .authenticated call source) (hrequest : l ≠ .elsewhere) :
      AdminCommits w i (.request l) { w.committed with passed := passed } (next.map .request)
  /-- The rest of `ingest_event`; the `UPDATE` of the source waits for its lock. -/
  | settles (call : IngestCall) (source : EventSource) (incoming : IncomingEvent)
      (hadmitted : admission g source call.value = .ok incoming)
      (hwaits : (settled g w.committed.passed.store source incoming call).sources ≠ w.committed.sources →
        Unlocked w i source.sourceId) :
      AdminCommits w i (.request (.authenticated call source))
        { passed :=
            { w.committed.passed with
              store := settled g w.committed.passed.store source incoming call }
          log := w.committed.log ++ acceptedEntry g w.committed.passed.store source incoming call } none
  | patches (sourceId : String) (changes : SourceChanges)
      (hwaits : changes ≠ {} → Unlocked w i sourceId) :
      AdminCommits w i (.patching sourceId changes)
        { passed :=
            { w.committed.passed with
              store :=
                { w.committed.passed.store with
                  sources := modifyWhere (fun row => decide (row.sourceId = sourceId)) changes.apply
                    w.committed.sources } }
          log := w.committed.log ++ [.patched sourceId changes] } none
  /-- Another row with the key raises `IntegrityError`. -/
  | creates (row : EventSource) (hkey : findSource w.committed.passed.store row.sourceId = none) :
      AdminCommits w i (.creating row)
        { passed :=
            { w.committed.passed with
              store := { w.committed.passed.store with sources := w.committed.sources ++ [row] } }
          log := w.committed.log ++ [.created row] } none

inductive Administration.Begins : Administration → Prop where
  | request (call : IngestCall) : Begins (.request (.asked call))
  | patch (sourceId : String) (body : SourcePatch) : Begins (.patch sourceId body)
  | create (body : SourceCreate) (random : String) : Begins (.create body random)

def administering : Protocol Administered Administration where
  begins := Administration.Begins
  moves := AdminMoves g
  commits := AdminCommits g
  rollsBack _ := True

end Protocol

end TraceQ.Api
