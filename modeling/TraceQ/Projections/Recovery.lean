import TraceQ.Library.Transactions
import TraceQ.Projections.Rebuild

/-! # Ingestion and rebuilds of one item side by side

The transactions of `ingest_event`, `rebuild_item` and `mark_projection_failed` on the
`ProjectionState` row of one item under READ COMMITTED. `ingest_seq` is drawn at the insert, the row
is read without a lock, and an update writes only the columns that differ from what was read.
-/
namespace TraceQ.Projections
open Transactions
set_option autoImplicit false
set_option maxHeartbeats 250000

/-! ## The committed rows -/

structure ItemTables where
  /-- `ingest_seq` of the committed events of the item. -/
  raws : List ℕ
  state : Option ProjectionState
  /-- The events the last committed rebuild read. -/
  seen : List ℕ

/-- The condition of `recover_stale_projections`. -/
def selected (state : ProjectionState) : Bool :=
  decide (state.lastProjectedIngestSeq < state.latestRawIngestSeq) ||
    [.stale, .failed, .rebuilding].contains state.status

theorem staleItems_eq (db : Database) :
    staleItems db = (db.projectionStates.filter selected).map (·.itemId) := rfl

theorem selected_of_status {state : ProjectionState} (h : state.status ≠ .upToDate) :
    selected state = true := by
  cases hstatus : state.status with
  | upToDate => exact absurd hstatus h
  | _ => simp [selected, hstatus]

/-! ## Partial writes -/

/-- `UPDATE` of one column: the value is written if it differs from the one read. -/
def written {α : Type} [DecidableEq α] (read value current : α) : α :=
  if value = read then current else value

/-- The row `ingest_event` leaves: `read` is the row it read, `current` the one it updates. -/
def ingestWrite (seq : ℕ) (read current : ProjectionState) : ProjectionState :=
  { current with
    latestRawIngestSeq :=
      written read.latestRawIngestSeq (max read.latestRawIngestSeq seq) current.latestRawIngestSeq
    status := written read.status .stale current.status }

/-- The row `rebuild_item` leaves; its status was flushed as `rebuilding` before. -/
def rebuildWrite (raws : List ℕ) (read current : ProjectionState) : ProjectionState :=
  if raws = [] then { current with status := .upToDate }
  else
    { current with
      latestRawIngestSeq := written read.latestRawIngestSeq (raws.foldl max 0) current.latestRawIngestSeq
      lastProjectedIngestSeq :=
        written read.lastProjectedIngestSeq (raws.foldl max 0) current.lastProjectedIngestSeq
      projectionVersion := read.projectionVersion + 1
      status := .upToDate
      lastError := written read.lastError none current.lastError }

/-- The row `mark_projection_failed` leaves. -/
def failedWrite (error : ReplayError) (read current : ProjectionState) : ProjectionState :=
  { current with
    status := written read.status .failed current.status
    lastError := written read.lastError (some error) current.lastError }

theorem written_self {α : Type} [DecidableEq α] (read value : α) : written read value read = value := by
  unfold written
  split
  · rename_i h; exact h.symm
  · rfl

/-- If nothing came between, the writes are those of the sequential functions. -/
theorem ingestWrite_self (seq : ℕ) (read : ProjectionState) : ingestWrite seq read read =
    { read with latestRawIngestSeq := max read.latestRawIngestSeq seq, status := .stale } := by
  rw [ingestWrite, written_self, written_self]

theorem rebuildWrite_self (raws : List RawEvent) (hraws : raws ≠ []) (read : ProjectionState) :
    rebuildWrite (raws.map (·.ingestSeq)) read read = projected raws read := by
  have hne : raws.map (·.ingestSeq) ≠ [] := by simpa using hraws
  rw [rebuildWrite, if_neg hne, written_self, written_self, written_self, projected, maxIngestSeq]

theorem failedWrite_self (error : ReplayError) (read : ProjectionState) :
    failedWrite error read read = { read with status := .failed, lastError := some error } := by
  rw [failedWrite, written_self, written_self]

/-! ## The transactions -/

inductive ItemTransaction where
  | ingest
  /-- The raw event is inserted. -/
  | inserted (seq : ℕ)
  /-- The row of the item is read. -/
  | ingestRead (seq : ℕ) (read : ProjectionState)
  | rebuild
  | rebuildRead (read : Option ProjectionState)
  /-- The status `rebuilding` is flushed, in a new row or in the one read. -/
  | flushed (read : ProjectionState) (isNew : Bool)
  /-- Under the advisory lock of the item the events are read. -/
  | replayed (read : ProjectionState) (isNew : Bool) (raws : List ℕ)
  /-- The rebuild raised and was rolled back. -/
  | raised (error : ReplayError)
  | failedRead (error : ReplayError) (read : Option ProjectionState)

namespace ItemTransaction

/-- The update of the row is not committed yet. -/
def locksRow : ItemTransaction → Prop
  | .flushed read isNew => isNew = true ∨ read.status ≠ .rebuilding
  | .replayed read isNew _ => isNew = true ∨ read.status ≠ .rebuilding
  | _ => False

/-- `pg_advisory_xact_lock`. -/
def locksItem : ItemTransaction → Prop
  | .replayed _ _ _ => True
  | _ => False

/-- The sequence number of an event that is not committed yet. -/
def drawn : ItemTransaction → Option ℕ
  | .inserted seq => some seq
  | .ingestRead seq _ => some seq
  | _ => none

end ItemTransaction

open ItemTransaction

abbrev ItemWorld := World ItemTables ItemTransaction

inductive ItemMoves (itemId : String) (w : ItemWorld) (i : ℕ) :
    ItemTransaction → ItemTransaction → Prop where
  | inserts (seq : ℕ) (hraws : seq ∉ w.committed.raws) (hothers : w.Others i fun m => m.drawn ≠ some seq) :
      ItemMoves itemId w i .ingest (.inserted seq)
  | ingestReads (seq : ℕ) (read : ProjectionState) (hstate : w.committed.state = some read) :
      ItemMoves itemId w i (.inserted seq) (.ingestRead seq read)
  | rebuildReads : ItemMoves itemId w i .rebuild (.rebuildRead w.committed.state)
  | updates (read : ProjectionState)
      (hlock : read.status ≠ .rebuilding → w.Others i fun m => ¬ m.locksRow) :
      ItemMoves itemId w i (.rebuildRead (some read)) (.flushed read false)
  | creates (hstate : w.committed.state = none) (hlock : w.Others i fun m => ¬ m.locksRow) :
      ItemMoves itemId w i (.rebuildRead none) (.flushed { itemId := itemId } true)
  | replays (read : ProjectionState) (isNew : Bool) (hlock : w.Others i fun m => ¬ m.locksItem) :
      ItemMoves itemId w i (.flushed read isNew) (.replayed read isNew w.committed.raws)
  | raises (l : ItemTransaction) (error : ReplayError)
      (hrebuild : (∃ read, l = .rebuildRead read) ∨ (∃ read isNew, l = .flushed read isNew) ∨
        ∃ read isNew raws, l = .replayed read isNew raws) :
      ItemMoves itemId w i l (.raised error)
  | failedReads (error : ReplayError) :
      ItemMoves itemId w i (.raised error) (.failedRead error w.committed.state)

inductive ItemCommits (itemId : String) (w : ItemWorld) (i : ℕ) :
    ItemTransaction → ItemTables → Option ItemTransaction → Prop where
  | ingest (seq : ℕ) (read current : ProjectionState) (hstate : w.committed.state = some current)
      (hlock : ingestWrite seq read current ≠ current → w.Others i fun m => ¬ m.locksRow) :
      ItemCommits itemId w i (.ingestRead seq read)
        { w.committed with
          raws := w.committed.raws ++ [seq]
          state := some (ingestWrite seq read current) } none
  | rebuild (read current : ProjectionState) (isNew : Bool) (raws : List ℕ)
      (hstate : w.committed.state = if isNew then none else some current)
      (hnew : isNew = true → current = read) :
      ItemCommits itemId w i (.replayed read isNew raws)
        { w.committed with state := some (rebuildWrite raws read current), seen := raws } none
  | failed (error : ReplayError) (read current : ProjectionState)
      (hstate : w.committed.state = some current)
      (hlock : failedWrite error read current ≠ current → w.Others i fun m => ¬ m.locksRow) :
      ItemCommits itemId w i (.failedRead error (some read))
        { w.committed with state := some (failedWrite error read current) } none
  | failedNew (error : ReplayError) (hstate : w.committed.state = none)
      (hlock : w.Others i fun m => ¬ m.locksRow) :
      ItemCommits itemId w i (.failedRead error none)
        { w.committed with
          state := some { itemId := itemId, status := .failed, lastError := some error } } none

def itemProtocol (itemId : String) : Protocol ItemTables ItemTransaction where
  begins l := l = .ingest ∨ l = .rebuild
  moves := ItemMoves itemId
  commits := ItemCommits itemId
  rollsBack _ := True

end TraceQ.Projections
