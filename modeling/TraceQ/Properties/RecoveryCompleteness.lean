import TraceQ.Projections.Recovery

/-! # Which events the startup recovery can miss

An ingestion that read the row of the item as stale does not write the status again, and a rebuild
that read the events before it may have made the row up to date in between. Where neither happens,
every event the last rebuild has not seen leaves its item to the recovery.
-/
namespace TraceQ.Properties
open Projections Transactions ItemTransaction
set_option autoImplicit false
set_option maxHeartbeats 250000

/-- Every committed event was read by the last committed rebuild, or the recovery selects the row. -/
def Recovered (tables : ItemTables) : Prop :=
  ∀ seq ∈ tables.raws, seq ∉ tables.seen → ∃ state, tables.state = some state ∧ selected state = true

/-- When a commit keeps the mark. An ingestion writes the status, or finds the row marked, or brings
the sequence number above what is projected; a rebuild has read every event committed so far. -/
def KeepsMark (w : ItemWorld) (_ : ℕ) : ItemTransaction → Prop
  | .ingestRead seq read => ∀ current, w.committed.state = some current →
      read.status ≠ .stale ∨ current.status ≠ .upToDate ∨
        current.lastProjectedIngestSeq <
          (if read.latestRawIngestSeq < seq then seq else current.latestRawIngestSeq)
  | .replayed _ _ raws => ∀ seq ∈ w.committed.raws, seq ∈ raws
  | _ => True

/-! ## One commit -/

theorem ingestWrite_selected {seq : ℕ} {read current : ProjectionState}
    (h : read.status ≠ .stale ∨ current.status ≠ .upToDate ∨ current.lastProjectedIngestSeq <
      (if read.latestRawIngestSeq < seq then seq else current.latestRawIngestSeq)) :
    selected (ingestWrite seq read current) = true := by
  by_cases hread : read.status = .stale
  · have hstatus : (ingestWrite seq read current).status = current.status := by
      simp [ingestWrite, written, hread]
    rcases h with h | h | h
    · exact absurd hread h
    · exact selected_of_status (by rwa [hstatus])
    · have hlatest : (ingestWrite seq read current).latestRawIngestSeq =
          if read.latestRawIngestSeq < seq then seq else current.latestRawIngestSeq := by
        simp only [ingestWrite, written]
        by_cases hlt : read.latestRawIngestSeq < seq
        · have hmax : max read.latestRawIngestSeq seq = seq := max_eq_right hlt.le
          rw [hmax, if_neg (by omega), if_pos hlt]
        · have hmax : max read.latestRawIngestSeq seq = read.latestRawIngestSeq := by omega
          rw [hmax, if_pos rfl, if_neg hlt]
      rw [selected, Bool.or_eq_true, decide_eq_true_eq, hlatest]
      exact .inl h
  · have hstatus : (ingestWrite seq read current).status = .stale := by
      simp [ingestWrite, written, Ne.symm hread]
    apply selected_of_status
    rw [hstatus]
    decide

/-- A failed rebuild writes its status or leaves the one another failure wrote. -/
theorem failedWrite_selected {error : ReplayError} {read current : ProjectionState}
    (h : selected current = true) : selected (failedWrite error read current) = true := by
  by_cases hread : read.status = .failed
  · have hstatus : (failedWrite error read current).status = current.status := by
      simp [failedWrite, written, hread]
    rw [selected, hstatus]
    exact h
  · have hstatus : (failedWrite error read current).status = .failed := by
      simp [failedWrite, written, Ne.symm hread]
    apply selected_of_status
    rw [hstatus]
    decide

theorem commit_recovered {itemId : String} {w : ItemWorld} {i : ℕ} {l : ItemTransaction}
    {tables : ItemTables} {l' : Option ItemTransaction} (h : Recovered w.committed)
    (hkeeps : KeepsMark w i l) (hcommit : ItemCommits itemId w i l tables l') : Recovered tables := by
  cases hcommit with
  | ingest seq read current hstate hlock =>
    exact fun _ _ _ => ⟨_, rfl, ingestWrite_selected (hkeeps current hstate)⟩
  | rebuild read current isNew raws hstate hnew =>
    exact fun seq hseq hmissed => absurd (hkeeps seq hseq) hmissed
  | failed error read current hstate hlock =>
    intro seq hseq hmissed
    obtain ⟨state, hfound, hselected⟩ := h seq hseq hmissed
    obtain rfl := Option.some.inj (hstate.symm.trans hfound)
    exact ⟨_, rfl, failedWrite_selected hselected⟩
  | failedNew error hstate hlock =>
    exact fun _ _ _ => ⟨_, rfl, selected_of_status (by simp)⟩

/-! ## Every interleaving -/

/-- In every interleaving whose commits keep the mark, and a crash at any point, no event is lost to
the recovery. -/
theorem recovery_complete {itemId : String} {start : ItemTables} (hstart : Recovered start)
    {w : ItemWorld} (h : ((itemProtocol itemId).restrict KeepsMark).Reachable (World.quiet start) w) :
    Recovered w.committed := by
  refine Protocol.invariant (P := fun w => Recovered w.committed) ?_ hstart h
  intro a b ha hstep
  cases hstep with
  | begins i l idle hl => exact ha
  | moves i l l' running hl => exact ha
  | commits i l tables l' running hl => exact commit_recovered ha hl.2 hl.1
  | rollsBack i l running hl => exact ha

/-! ### An event behind a rebuild -/

/-- The row a rebuild without events leaves. -/
def createdRow : ProjectionState := { itemId := "item-1", status := .upToDate }

/-- The row after the event with sequence number 1. -/
def staleRow : ProjectionState := { itemId := "item-1", latestRawIngestSeq := 1 }

/-- A rebuild creates the row and an event is ingested. -/
theorem staleRow_reachable : ((itemProtocol "item-1").restrict KeepsMark).Reachable
    (World.quiet ⟨[], none, []⟩) (World.quiet ⟨[1], some staleRow, []⟩) := by
  have hrebuild : ((itemProtocol "item-1").restrict KeepsMark).Reachable (World.quiet ⟨[], none, []⟩)
      (Protocol.alone ⟨[], none, []⟩ .rebuild) := by
    apply Protocol.alone_begins
    exact .inr rfl
  have hread := Protocol.alone_moves hrebuild .rebuildReads
  have hflushed := Protocol.alone_moves hread (.creates rfl (Protocol.others_alone _ _ _))
  have hreplayed := Protocol.alone_moves hflushed (.replays _ true (Protocol.others_alone _ _ _))
  have hcreated : ((itemProtocol "item-1").restrict KeepsMark).Reachable
      (World.quiet ⟨[], none, []⟩) (World.quiet ⟨[], some createdRow, []⟩) :=
    Protocol.alone_commits hreplayed
      ⟨.rebuild _ { itemId := "item-1" } true [] rfl fun _ => rfl, fun _ h => h⟩
  have hingest : ((itemProtocol "item-1").restrict KeepsMark).Reachable
      (World.quiet ⟨[], some createdRow, []⟩)
      (Protocol.alone ⟨[], some createdRow, []⟩ .ingest) := by
    apply Protocol.alone_begins
    exact .inl rfl
  have hinserted := Protocol.alone_moves hingest
    (.inserts 1 List.not_mem_nil (Protocol.others_alone _ _ _))
  have hingestRead := Protocol.alone_moves hinserted (.ingestReads 1 createdRow rfl)
  refine hcreated.trans (Protocol.alone_commits hingestRead ⟨.ingest 1 createdRow createdRow rfl
    fun _ => Protocol.others_alone _ _ _, fun _ _ => .inl ?_⟩)
  decide

theorem recovery_complete_stale_row : Recovered ⟨[1], some staleRow, []⟩ := by
  have hstart : Recovered ⟨[], none, []⟩ := by simp [Recovered]
  exact recovery_complete hstart staleRow_reachable

/-- Event 2 reads the stale row; event 3 is committed and both events but 2 are rebuilt; then event 2
is committed and lowers the latest number without marking the row. -/
theorem overtaken_event_lost : ¬ ∀ (itemId : String) (w : ItemWorld),
    (itemProtocol itemId).Reachable (World.quiet ⟨[], none, []⟩) w → Recovered w.committed := by
  intro h
  have hingest : (itemProtocol "item-1").Reachable (World.quiet ⟨[], none, []⟩)
      (Protocol.alone ⟨[1], some staleRow, []⟩ .ingest) := by
    refine (Protocol.reachable_of_restrict staleRow_reachable).trans ?_
    apply Protocol.alone_begins
    exact .inl rfl
  have hinserted := Protocol.alone_moves hingest
    (.inserts 2 (by simp [Protocol.alone, World.quiet, World.set]) (Protocol.others_alone _ _ _))
  have hslow := Protocol.alone_moves hinserted (.ingestReads 2 staleRow rfl)
  -- event 3 overtakes event 2
  have hsecond := Protocol.both_begins hslow (m := .ingest) (.inl rfl)
  have hsecondInserted := Protocol.both_moves hsecond
    (.inserts 3 (by simp [Protocol.both, Protocol.alone, World.quiet, World.set])
      (Protocol.others_both (by simp [drawn])))
  have hsecondRead := Protocol.both_moves hsecondInserted (.ingestReads 3 staleRow rfl)
  have hovertaken := Protocol.both_commits hsecondRead (.ingest 3 staleRow staleRow rfl
    fun _ => Protocol.others_both (by simp [locksRow]))
  -- a rebuild reads events 1 and 3
  have hrebuild := Protocol.both_begins hovertaken (m := .rebuild) (.inr rfl)
  have hread := Protocol.both_moves hrebuild .rebuildReads
  have hflushed := Protocol.both_moves hread
    (.updates (ingestWrite 3 staleRow staleRow) fun _ => Protocol.others_both (by simp [locksRow]))
  have hreplayed := Protocol.both_moves hflushed
    (.replays _ false (Protocol.others_both (by simp [locksItem])))
  have hrebuilt := Protocol.both_commits hreplayed
    (.rebuild _ (ingestWrite 3 staleRow staleRow) false _ rfl (by simp))
  have hlost := Protocol.alone_commits hrebuilt (.ingest 2 staleRow
    (rebuildWrite [1, 3] (ingestWrite 3 staleRow staleRow) (ingestWrite 3 staleRow staleRow)) rfl
    fun _ => Protocol.others_alone _ _ _)
  obtain ⟨state, hstate, hselected⟩ := h "item-1" _ hlost 2 (by decide) (by decide)
  obtain rfl := Option.some.inj hstate
  revert hselected
  decide

end TraceQ.Properties
