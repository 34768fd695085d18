import TraceQ.Backend.Frames

/-! # Source records

Stored events have distinct ids and are never changed, and the invalidation a stored event carries is
recorded. Only the ingestion of an event stores one.
-/
namespace TraceQ.Backend
open Projections Ingestion Api Quality Tables Results
set_option autoImplicit false
set_option maxHeartbeats 250000

/-- What a call does to the source records: it stores one new event, or none. -/
inductive SourceStep (db db' : Database) : Prop where
  | kept (rawEvents : db'.rawEvents = db.rawEvents)
      (invalidations : db.controlDeviceInvalidations ⊆ db'.controlDeviceInvalidations)
  | stored (raw : RawEvent) (fresh : findRawEvent db raw.eventId = none)
      (rawEvents : db'.rawEvents = db.rawEvents ++ [raw])
      (invalidations : db'.controlDeviceInvalidations =
        db.controlDeviceInvalidations ++ recordsOf raw.event)

theorem SourceStep.refl (db : Database) : SourceStep db db :=
  .kept rfl (List.Subset.refl _)

theorem ingest_source {db db' : Database} {event : EventEnvelope} {receivedAt : Instant}
    {result : IngestionResult} (h : ingestEvent db event receivedAt = .ok (db', result)) :
    SourceStep db db' := by
  rcases ingestEvent_cases h with ⟨_, -, -, rfl, -⟩ | ⟨hfresh, -, -, ⟨raw, rfl, -, hraws⟩, hinv⟩
  · exact .refl _
  · exact .stored raw hfresh hraws hinv

/-- The source records a rebuild loop keeps. -/
def KeepsSources (db db' : Database) : Prop :=
  WellFormed db' ∧ db'.rawEvents = db.rawEvents ∧
    db.controlDeviceInvalidations ⊆ db'.controlDeviceInvalidations

theorem invalidateDevice_keepsSources {db : Database} (hwf : WellFormed db) (body : InvalidationInput)
    (userId : Uuid) : KeepsSources db (invalidateDevice db body userId).1 := by
  refine rebuildAll_invariant (P := KeepsSources db) ?_ ?_ ?_ _
  · rintro m n itemId ⟨hm, hraws, hinv⟩ hrebuild
    refine ⟨rebuildItem_wellFormed hm hrebuild, (rebuildItem_rawEvents hm hrebuild).trans hraws, ?_⟩
    rw [invalidations_of_outside (rebuildItem_outside hm hrebuild)]
    exact hinv
  · exact ⟨hwf, rfl, List.Subset.refl _⟩
  · exact ⟨wellFormed_congr hwf rfl rfl rfl le_rfl, rfl, List.subset_append_left _ _⟩

theorem invalidateDevice_source {db : Database} (hwf : WellFormed db) (body : InvalidationInput)
    (userId : Uuid) : SourceStep db (invalidateDevice db body userId).1 := by
  obtain ⟨-, hraws, hinv⟩ := invalidateDevice_keepsSources hwf body userId
  exact .kept hraws hinv

theorem exec_source {db : Database} (hs : Sound db) (call : Call) :
    SourceStep db (exec db call).1 := by
  cases exec_frame hs call with
  | ingested event receivedAt result isIngest h => exact ingest_source h
  | rebuilt itemId isRebuild h =>
    have hout := rebuildItem_outside hs.toWellFormed h
    exact .kept (rawEvents_of_outside hout) (invalidations_of_outside hout ▸ List.Subset.refl _)
  | failed itemId error isRebuild h marked =>
    rw [marked]
    exact .kept rfl (List.Subset.refl _)
  | invalidated body userId isInvalidation h =>
    rw [h]
    exact invalidateDevice_source hs.toWellFormed body userId
  | configured config isConfigure h =>
    rw [h]
    exact .kept rfl (List.Subset.refl _)
  | other h => exact .kept h.rawEvents (h.invalidations ▸ List.Subset.refl _)

/-- Whatever is not a delivery leaves the raw events as they are. -/
theorem exec_rawEvents {db : Database} (hs : Sound db) {call : Call}
    (hcall : ∀ event receivedAt, call ≠ .ingest event receivedAt) : (exec db call).1.rawEvents = db.rawEvents := by
  cases exec_frame hs call with
  | ingested event receivedAt result isIngest h => exact absurd isIngest (hcall event receivedAt)
  | rebuilt itemId isRebuild h => exact rebuildItem_rawEvents hs.toWellFormed h
  | failed itemId error isRebuild h marked =>
    rw [marked]
    rfl
  | invalidated body userId isInvalidation h =>
    rw [h]
    exact (invalidateDevice_keepsSources hs.toWellFormed body userId).2.1
  | configured config isConfigure h => rw [h]
  | other h => exact h.rawEvents

/-! ## Every reachable state -/

structure Sources (db : Database) : Prop where
  event_ids : (db.rawEvents.map (·.eventId)).Nodup
  recorded : ∀ raw ∈ db.rawEvents, recordsOf raw.event ⊆ db.controlDeviceInvalidations

theorem sources_initial (config : Configuration) (order : InsertOrder) :
    Sources { config := config, insertOrder := order } := by
  constructor <;> simp

theorem SourceStep.sources {db db' : Database} (hstep : SourceStep db db') (h : Sources db) :
    Sources db' := by
  cases hstep with
  | kept hraws hinv =>
    exact ⟨hraws ▸ h.event_ids, fun raw hraw => List.Subset.trans (h.recorded raw (hraws ▸ hraw)) hinv⟩
  | stored raw hfresh hraws hinv =>
    refine ⟨?_, fun other hother => ?_⟩
    · rw [hraws]
      refine nodup_map_append h.event_ids fun old hold => ?_
      have hmiss := List.find?_eq_none.mp hfresh old hold
      simpa using hmiss
    · rw [hraws] at hother
      rw [hinv]
      rcases List.mem_append.mp hother with hold | hnew
      · exact List.Subset.trans (h.recorded other hold) (List.subset_append_left _ _)
      · rw [List.mem_singleton.mp hnew]
        exact List.subset_append_right _ _

theorem reachable_sources {db : Database} (h : Reachable db) : Sources db := by
  refine (Machine.reachable_invariant (P := fun m => Sound m ∧ Sources m) ?_ ?_ h).2
  · rintro m ⟨config, order, rfl⟩
    exact ⟨sound_initial ⟨config, order, rfl⟩, sources_initial config order⟩
  · rintro m call ⟨hs, hm⟩
    exact ⟨exec_sound hs call, (exec_source hs call).sources hm⟩

end TraceQ.Backend
