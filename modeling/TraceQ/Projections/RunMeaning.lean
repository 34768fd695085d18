import TraceQ.Backend.Projectable

/-! # The collected runs

A run that a replay collects is read off the last event that starts it and the last one that finishes it, in
business order. Every run with such an event is collected.
-/
namespace TraceQ.Projections
open Quality Tables Backend
set_option autoImplicit false
set_option maxHeartbeats 250000

/-! ## The events of a run -/

/-- The event with its payload, if it starts the run. -/
def startedBy (runId : String) (raw : RawEvent) : Option (RawEvent × OperationStartedPayload) :=
  match raw.payload with
  | .operationStarted payload => if raw.operationRunId = some runId then some (raw, payload) else none
  | _ => none

/-- The event with its payload, if it finishes the run. -/
def finishedBy (runId : String) (raw : RawEvent) : Option (RawEvent × OperationFinishedPayload) :=
  match raw.payload with
  | .operationFinished payload => if raw.operationRunId = some runId then some (raw, payload) else none
  | _ => none

def lastStartEvent (raws : List RawEvent) (runId : String) : Option (RawEvent × OperationStartedPayload) :=
  (raws.filterMap (startedBy runId)).getLast?

def lastFinishEvent (raws : List RawEvent) (runId : String) : Option (RawEvent × OperationFinishedPayload) :=
  (raws.filterMap (finishedBy runId)).getLast?

theorem lastStartEvent_concat (raws : List RawEvent) (raw : RawEvent) (runId : String) :
    lastStartEvent (raws ++ [raw]) runId = (startedBy runId raw).or (lastStartEvent raws runId) :=
  getLast?_filterMap_concat _ raws raw

theorem lastFinishEvent_concat (raws : List RawEvent) (raw : RawEvent) (runId : String) :
    lastFinishEvent (raws ++ [raw]) runId = (finishedBy runId raw).or (lastFinishEvent raws runId) :=
  getLast?_filterMap_concat _ raws raw

/-- Some event of the run starts or finishes it. -/
def NamesRun (raws : List RawEvent) (runId : String) : Prop :=
  (lastStartEvent raws runId).isSome = true ∨ (lastFinishEvent raws runId).isSome = true

/-- The run has the values of its last start and of its last finish. -/
structure ReadFrom (raws : List RawEvent) (run : OperationValue) : Prop where
  operationId : run.operationId = (lastStartEvent raws run.operationRunId).map (·.2.operationId)
  operatorId : run.operatorId = (lastStartEvent raws run.operationRunId).map (·.2.operatorId)
  stationId : run.stationId = (lastStartEvent raws run.operationRunId).map (·.2.stationId)
  previousOperationRunId : run.previousOperationRunId =
    (lastStartEvent raws run.operationRunId).bind (·.2.previousOperationRunId)
  startedAt : run.startedAt = (lastStartEvent raws run.operationRunId).map (·.1.occurredAt)
  equipmentId : run.equipmentId = (lastStartEvent raws run.operationRunId).map (·.2.equipmentId)
  parameters : run.parameters = (lastStartEvent raws run.operationRunId).bind (·.2.parameters)
  reworkForNonconformanceId : run.reworkForNonconformanceId =
    (lastStartEvent raws run.operationRunId).bind (·.2.reworkForNonconformanceId)
  finishedAt : run.finishedAt = (lastFinishEvent raws run.operationRunId).map (·.1.occurredAt)
  duration : run.duration = (lastFinishEvent raws run.operationRunId).bind (·.2.duration)
  finishParameters : run.finishParameters = (lastFinishEvent raws run.operationRunId).bind (·.2.parameters)

theorem readFrom_blank {raws : List RawEvent} {runId : String} (h : ¬ NamesRun raws runId) :
    ReadFrom raws { operationRunId := runId } := by
  have hstarted : lastStartEvent raws runId = none := by
    rw [← Option.not_isSome_iff_eq_none]
    exact fun hsome => h (.inl hsome)
  have hfinished : lastFinishEvent raws runId = none := by
    rw [← Option.not_isSome_iff_eq_none]
    exact fun hsome => h (.inr hsome)
  constructor <;> simp [hstarted, hfinished]

section Step
variable {raws : List RawEvent} {raw : RawEvent} {run : OperationValue} (h : ReadFrom raws run)
include h

theorem ReadFrom.other (hstarts : startedBy run.operationRunId raw = none)
    (hfinishes : finishedBy run.operationRunId raw = none) : ReadFrom (raws ++ [raw]) run := by
  constructor <;> simp only [lastStartEvent_concat, lastFinishEvent_concat, hstarts, hfinishes, Option.none_or]
  exacts [h.operationId, h.operatorId, h.stationId, h.previousOperationRunId, h.startedAt, h.equipmentId,
    h.parameters, h.reworkForNonconformanceId, h.finishedAt, h.duration, h.finishParameters]

theorem ReadFrom.start {payload : OperationStartedPayload} (hpayload : raw.payload = .operationStarted payload)
    (hrun : raw.operationRunId = some run.operationRunId) :
    ReadFrom (raws ++ [raw]) (startRun raw payload run) := by
  have hstarts : startedBy run.operationRunId raw = some (raw, payload) := by
    simp only [startedBy, hpayload, if_pos hrun]
  have hfinishes : finishedBy run.operationRunId raw = none := by simp only [finishedBy, hpayload]
  constructor <;> simp [startRun, lastStartEvent_concat, lastFinishEvent_concat, hstarts, hfinishes, h.finishedAt,
    h.duration, h.finishParameters]

theorem ReadFrom.finish {payload : OperationFinishedPayload} (hpayload : raw.payload = .operationFinished payload)
    (hrun : raw.operationRunId = some run.operationRunId) :
    ReadFrom (raws ++ [raw]) (finishRun raw payload run) := by
  have hstarts : startedBy run.operationRunId raw = none := by simp only [startedBy, hpayload]
  have hfinishes : finishedBy run.operationRunId raw = some (raw, payload) := by
    simp only [finishedBy, hpayload, if_pos hrun]
  constructor <;> simp [finishRun, lastStartEvent_concat, lastFinishEvent_concat, hstarts, hfinishes, h.operationId,
    h.operatorId, h.stationId, h.previousOperationRunId, h.startedAt, h.equipmentId, h.parameters,
    h.reworkForNonconformanceId]

end Step

/-! ## All runs of a replay -/

/-- The runs collected from `raws`. -/
structure RunsRead (raws : List RawEvent) (runs : List OperationValue) : Prop where
  ids : (runs.map (·.operationRunId)).Nodup
  read : ∀ run ∈ runs, ReadFrom raws run
  named : ∀ runId, (∃ run ∈ runs, run.operationRunId = runId) ↔ NamesRun raws runId

theorem namesRun_concat {raws : List RawEvent} {raw : RawEvent} {runId : String} :
    NamesRun (raws ++ [raw]) runId ↔
      (startedBy runId raw).isSome = true ∨ (finishedBy runId raw).isSome = true ∨ NamesRun raws runId := by
  simp only [NamesRun, lastStartEvent_concat, lastFinishEvent_concat, Option.isSome_or, Bool.or_eq_true]
  tauto

theorem runsRead_other {raws : List RawEvent} {runs : List OperationValue} (h : RunsRead raws runs)
    {raw : RawEvent} (hstarts : ∀ runId, startedBy runId raw = none)
    (hfinishes : ∀ runId, finishedBy runId raw = none) : RunsRead (raws ++ [raw]) runs := by
  refine ⟨h.ids, fun run hrun => (h.read run hrun).other (hstarts _) (hfinishes _), fun runId => ?_⟩
  rw [namesRun_concat, hstarts, hfinishes, h.named]
  simp

/-- An event neither starts nor finishes a run that it does not name. -/
theorem unnamed_of_ne {raw : RawEvent} {runId : String} (h : raw.operationRunId ≠ some runId) :
    startedBy runId raw = none ∧ finishedBy runId raw = none := by
  unfold startedBy finishedBy
  cases raw.payload <;> simp [h]

theorem runsRead_unnamed {raws : List RawEvent} {runs : List OperationValue} (h : RunsRead raws runs)
    {raw : RawEvent} (hraw : raw.operationRunId = none) (f : OperationValue → OperationValue) :
    RunsRead (raws ++ [raw]) (updateRun raw f runs) := by
  have hsame : updateRun raw f runs = runs := by rw [updateRun, hraw]
  have hnone : ∀ runId, startedBy runId raw = none ∧ finishedBy runId raw = none :=
    fun runId => unnamed_of_ne (by simp [hraw])
  rw [hsame]
  exact runsRead_other h (fun runId => (hnone runId).1) fun runId => (hnone runId).2

theorem mem_updateRun {runs : List OperationValue} (h : (runs.map (·.operationRunId)).Nodup) {raw : RawEvent}
    {runId : String} (hraw : raw.operationRunId = some runId) {f : OperationValue → OperationValue}
    {run : OperationValue} (hrun : run ∈ updateRun raw f runs) (hid : run.operationRunId = runId) :
    (∃ old ∈ runs, old.operationRunId = runId ∧ run = f old) ∨
      (run = f { operationRunId := runId } ∧ ∀ old ∈ runs, old.operationRunId ≠ runId) := by
  have hupsert : run ∈ upsert (·.operationRunId) runId { operationRunId := runId } f runs := by
    rw [updateRun, hraw] at hrun
    exact hrun
  clear hrun
  induction runs with
  | nil => exact .inr ⟨List.mem_singleton.mp hupsert, fun old hold => absurd hold List.not_mem_nil⟩
  | cons head rest ih =>
    rw [List.map_cons, List.nodup_cons] at h
    rw [upsert] at hupsert
    split at hupsert
    · rename_i hhead
      rcases List.mem_cons.mp hupsert with rfl | hmem
      · exact .inl ⟨head, List.mem_cons_self, hhead, rfl⟩
      · exact absurd (List.mem_map.mpr ⟨run, hmem, hid.trans hhead.symm⟩) h.1
    · rename_i hhead
      rcases List.mem_cons.mp hupsert with rfl | hmem
      · exact absurd hid hhead
      · rcases ih h.2 hmem with ⟨old, hold, hidOld, heq⟩ | ⟨heq, hnone⟩
        · exact .inl ⟨old, List.mem_cons_of_mem _ hold, hidOld, heq⟩
        · refine .inr ⟨heq, fun old hold => ?_⟩
          rcases List.mem_cons.mp hold with rfl | hrest
          · exact hhead
          · exact hnone old hrest

/-- An event that starts or finishes one run updates that run. -/
theorem runsRead_updateRun {raws : List RawEvent} {runs : List OperationValue} (h : RunsRead raws runs)
    {raw : RawEvent} {runId : String} (hraw : raw.operationRunId = some runId)
    {f : OperationValue → OperationValue} (hf : ∀ run, (f run).operationRunId = run.operationRunId)
    (hread : ∀ run, run.operationRunId = runId → ReadFrom raws run → ReadFrom (raws ++ [raw]) (f run))
    (hnames : NamesRun (raws ++ [raw]) runId) : RunsRead (raws ++ [raw]) (updateRun raw f runs) := by
  have hblank : ({ operationRunId := runId } : OperationValue).operationRunId = runId := rfl
  have hupdate : updateRun raw f runs =
      upsert (·.operationRunId) runId { operationRunId := runId } f runs := by rw [updateRun, hraw]
  refine ⟨updateRun_nodup h.ids raw hf, fun run hrun => ?_, fun other => ?_⟩
  · by_cases hid : run.operationRunId = runId
    · rcases mem_updateRun h.ids hraw hrun hid with ⟨old, hold, hidOld, rfl⟩ | ⟨rfl, hnew⟩
      · exact hread old hidOld (h.read old hold)
      · refine hread _ hblank (readFrom_blank fun hnamed => ?_)
        obtain ⟨old, hold, hidOld⟩ := (h.named runId).mpr hnamed
        exact hnew old hold hidOld
    · have hne : raw.operationRunId ≠ some run.operationRunId :=
        fun heq => hid (Option.some.inj (heq.symm.trans hraw))
      obtain ⟨hstarts, hfinishes⟩ := unnamed_of_ne hne
      rw [hupdate] at hrun
      exact (h.read run ((mem_upsert_other hblank hf hid).mp hrun)).other hstarts hfinishes
  · by_cases hid : other = runId
    · subst hid
      obtain ⟨old, hidOld, hmem⟩ := exists_mem_upsert (f := f) hblank runs
      exact iff_of_true ⟨f old, hupdate ▸ hmem, (hf old).trans hidOld⟩ hnames
    · obtain ⟨hstarts, hfinishes⟩ := unnamed_of_ne fun heq => hid (Option.some.inj (heq.symm.trans hraw))
      rw [namesRun_concat, hstarts, hfinishes, ← h.named other, hupdate]
      have hkept : ∀ run : OperationValue, run.operationRunId = other →
          (run ∈ upsert (·.operationRunId) runId { operationRunId := runId } f runs ↔ run ∈ runs) :=
        fun run hrunId => mem_upsert_other hblank hf (by rwa [hrunId])
      constructor
      · rintro ⟨run, hrun, hrunId⟩
        exact .inr (.inr ⟨run, (hkept run hrunId).mp hrun, hrunId⟩)
      · rintro (hnone | hnone | ⟨run, hrun, hrunId⟩)
        · cases hnone
        · cases hnone
        · exact ⟨run, (hkept run hrunId).mpr hrun, hrunId⟩

theorem runsRead_replayEvent {db : Database} {raws : List RawEvent} {values : ReplayValues}
    (h : RunsRead raws values.operations) (raw : RawEvent) :
    RunsRead (raws ++ [raw]) (replayEvent db values raw).operations := by
  cases hpayload : raw.payload with
  | operationStarted payload =>
    simp only [replayEvent, hpayload]
    cases hraw : raw.operationRunId with
    | none => exact runsRead_unnamed h hraw _
    | some runId =>
      have hread : ∀ run : OperationValue, run.operationRunId = runId → ReadFrom raws run →
          ReadFrom (raws ++ [raw]) (startRun raw payload run) :=
        fun run hid hread => hread.start hpayload (hid ▸ hraw)
      refine runsRead_updateRun h hraw (fun _ => rfl) hread ?_
      exact namesRun_concat.mpr (.inl (by simp [startedBy, hpayload, hraw]))
  | operationFinished payload =>
    simp only [replayEvent, hpayload]
    cases hraw : raw.operationRunId with
    | none => exact runsRead_unnamed h hraw _
    | some runId =>
      have hread : ∀ run : OperationValue, run.operationRunId = runId → ReadFrom raws run →
          ReadFrom (raws ++ [raw]) (finishRun raw payload run) :=
        fun run hid hread => hread.finish hpayload (hid ▸ hraw)
      refine runsRead_updateRun h hraw (fun _ => rfl) hread ?_
      exact namesRun_concat.mpr (.inr (.inl (by simp [finishedBy, hpayload, hraw])))
  | _ =>
    simp only [replayEvent, hpayload]
    refine runsRead_other h (fun runId => ?_) fun runId => ?_ <;> simp only [startedBy, finishedBy, hpayload]

theorem runsRead_replay (db : Database) (itemId : String) :
    RunsRead (history db itemId) (replay db itemId).operations := by
  have hfold : ∀ (rest done : List RawEvent) (values : ReplayValues), RunsRead done values.operations →
      RunsRead (done ++ rest) (rest.foldl (replayEvent db) values).operations := by
    intro rest
    induction rest with
    | nil =>
      intro done values h
      rwa [List.append_nil]
    | cons raw rest ih =>
      intro done values h
      have hstep : RunsRead (done ++ [raw]) (replayEvent db values raw).operations := runsRead_replayEvent h raw
      have hnext := ih (done ++ [raw]) _ hstep
      rwa [List.append_assoc, List.singleton_append] at hnext
  have hstart : RunsRead [] ({} : ReplayValues).operations := by
    refine ⟨List.nodup_nil, fun run hrun => absurd hrun List.not_mem_nil, fun runId => ?_⟩
    simp [NamesRun, lastStartEvent, lastFinishEvent]
  exact hfold (history db itemId) [] {} hstart

end TraceQ.Projections
