import TraceQ.Backend.Sources
import TraceQ.Backend.RowSources
import TraceQ.Projections.Conflicts
import TraceQ.Properties.Reopening

/-! # What the conflict pass marks

The pass is meant for a trusted GOOD against a trusted DEFECT. It compares the raw results of a group, whatever
their trust, and it groups by capture session where there is one. So it also takes the status of an observation
that was never eligible, and it misses two opposing observations of different sessions. And as the item of a
detected defect cannot be rebuilt, an inspection that was stored as trusted before stays so.
-/
namespace TraceQ.Properties
open Projections Ingestion Api Quality Tables Results Backend
set_option autoImplicit false
set_option maxHeartbeats 250000

/-! ## Statuses before the pass -/

theorem evaluateTrust_status (payload : InspectionResultPayload) (policy : TrustPolicyValue)
    (deviceValid invalidated : Bool) :
    (evaluateTrust payload policy deviceValid invalidated).status ≠ .conflicted ∧
      (payload.inspectionResult = .impossibleToAssess ↔
        (evaluateTrust payload policy deviceValid invalidated).status = .unassessable) := by
  unfold evaluateTrust
  by_cases himpossible : payload.inspectionResult = .impossibleToAssess
  · rw [if_pos himpossible]
    exact ⟨nofun, iff_of_true himpossible rfl⟩
  · rw [if_neg himpossible]
    cases invalidated with
    | true => exact ⟨nofun, iff_of_false himpossible nofun⟩
    | false =>
      simp only [Bool.false_eq_true, if_false]
      cases policyReasons payload policy deviceValid <;> exact ⟨nofun, iff_of_false himpossible nofun⟩

theorem judged_status {db : Database} {itemId : String} {obs : ObservationValue}
    (h : obs ∈ judged db itemId) : obs.trustStatus ≠ .conflicted ∧
      (obs.payload.inspectionResult = .impossibleToAssess ↔ obs.trustStatus = .unassessable) := by
  obtain ⟨raw, -, payload, -, rfl⟩ := mem_judged.mp h
  exact evaluateTrust_status payload _ _ _

/-! ## Marks of eligible observations -/

/-- GOOD against DEFECT. -/
def Opposes (a b : InspectionResult) : Prop :=
  (a = .noDefect ∧ b = .defectDetected) ∨ (a = .defectDetected ∧ b = .noDefect)

theorem opposes_of_ne {a b : InspectionResult} (ha : a ≠ .impossibleToAssess) (hb : b ≠ .impossibleToAssess)
    (hne : a ≠ b) : Opposes a b := by
  cases a <;> cases b <;> simp_all [Opposes]

/-- The observation is trusted, and so is an opposite one of its group. -/
def Eligible (observations : List ObservationValue) (obs : ObservationValue) : Prop :=
  obs.trustStatus = .trusted ∧ ∃ other ∈ observations, conflictKey other = conflictKey obs ∧
    other.trustStatus = .trusted ∧
    Opposes other.payload.inspectionResult obs.payload.inspectionResult

/-- `marked` is `obs` after a pass that marks only eligible observations and leaves all others alone. -/
structure MarkedExactly (observations : List ObservationValue) (obs marked : ObservationValue) : Prop where
  eligible : marked.trustStatus = .conflicted → Eligible observations obs
  kept : marked.trustStatus ≠ .conflicted →
    marked.trustStatus = obs.trustStatus ∧ marked.trustReasons = obs.trustReasons
  unassessable : obs.payload.inspectionResult = .impossibleToAssess → marked.trustStatus = .unassessable
  invalidated : obs.trustStatus = .invalidated → marked.trustStatus = .invalidated
  /-- Without observations that are not trusted the pass does the same to `obs`. -/
  unaffected : ∀ rest : List ObservationValue, rest.Sublist observations →
    (∀ other ∈ observations, other.trustStatus = .trusted → other ∈ rest) → obs ∈ rest →
    (afterConflicts rest obs).trustStatus = marked.trustStatus

/-- Where another result was reported, the observation is trusted. -/
def OnlyTrustedOpposed (observations : List ObservationValue) : Prop :=
  ∀ obs ∈ observations, Contradicted observations obs → obs.trustStatus = .trusted

theorem contradicted_symm {observations : List ObservationValue} {obs : ObservationValue}
    (hobs : obs ∈ observations) (h : Contradicted observations obs) :
    ∃ other ∈ observations, conflictKey other = conflictKey obs ∧
      other.payload.inspectionResult ≠ obs.payload.inspectionResult ∧ Contradicted observations other := by
  obtain ⟨other, hother, hkey, hresult⟩ := h
  exact ⟨other, hother, hkey, hresult, obs, hobs, hkey.symm, hresult.symm⟩

section Pass
variable {db : Database} {itemId : String}

theorem markedExactly_of_trusted (htrusted : OnlyTrustedOpposed (judged db itemId)) {obs : ObservationValue}
    (hobs : obs ∈ judged db itemId) :
    MarkedExactly (judged db itemId) obs (afterConflicts (judged db itemId) obs) := by
  obtain ⟨hjudged, himpossible⟩ := judged_status hobs
  have hunassessable : obs.payload.inspectionResult = .impossibleToAssess →
      ¬ Contradicted (judged db itemId) obs := by
    intro hresult hcontradicted
    have htrust := htrusted obs hobs hcontradicted
    rw [himpossible.mp hresult] at htrust
    cases htrust
  by_cases h : Contradicted (judged db itemId) obs
  · have hmarked := afterConflicts_of_contradicted hobs h
    have htrust := htrusted obs hobs h
    obtain ⟨other, hother, hkey, hresult, hboth⟩ := contradicted_symm hobs h
    have hotherTrust := htrusted other hother hboth
    refine ⟨fun _ => ⟨htrust, other, hother, hkey, hotherTrust, ?_⟩, fun hne => absurd hmarked hne,
      fun hnone => absurd h (hunassessable hnone), fun hinvalid => ?_, ?_⟩
    · refine opposes_of_ne (fun hnone => ?_) (fun hnone => hunassessable hnone h) hresult
      rw [(judged_status hother).2.mp hnone] at hotherTrust
      cases hotherTrust
    · rw [hinvalid] at htrust
      cases htrust
    · intro rest _ hkept hrest
      rw [hmarked]
      exact afterConflicts_of_contradicted hrest ⟨other, hkept other hother hotherTrust, hkey, hresult⟩
  · have hmarked := afterConflicts_of_agreed hobs h
    rw [hmarked]
    refine ⟨fun hconflicted => absurd hconflicted hjudged, fun _ => ⟨rfl, rfl⟩, himpossible.mp, id, ?_⟩
    intro rest hsub _ hrest
    rw [afterConflicts_of_agreed hrest]
    rintro ⟨other, hother, hkey, hresult⟩
    exact h ⟨other, hsub.subset hother, hkey, hresult⟩

theorem forall_marked_iff : List.Forall₂ (MarkedExactly (judged db itemId)) (judged db itemId)
      (replay db itemId).observations ↔
    ∀ obs ∈ judged db itemId,
      MarkedExactly (judged db itemId) obs (afterConflicts (judged db itemId) obs) := by
  rw [replay_observations_eq, List.forall₂_map_right_iff, List.forall₂_same]

/-- The pass marks exactly the eligible observations of a history if and only if every observation in a group
with more than one result is trusted. -/
theorem conflict_marks_iff (db : Database) (itemId : String) :
    List.Forall₂ (MarkedExactly (judged db itemId)) (judged db itemId) (replay db itemId).observations ↔
      OnlyTrustedOpposed (judged db itemId) := by
  rw [forall_marked_iff]
  constructor
  · intro h obs hobs hcontradicted
    exact ((h obs hobs).eligible (afterConflicts_of_contradicted hobs hcontradicted)).1
  · exact fun htrusted obs hobs => markedExactly_of_trusted htrusted hobs

end Pass

/-! ### A blurred GOOD -/

/-- Another look at the item of `scratchSeen`, without a defect. -/
def clearSeen (eventId : String) (occurredAt : Instant) (quality : ObservationQuality)
    (session : Option String) : EventEnvelope :=
  { scratchSeen eventId occurredAt with
    payload := .inspectionResult
      { inspectionResult := .noDefect
        observationQuality := quality
        controlPointId := "CP-1"
        captureSessionId := session
        validate_defects := nothing_listed } }

def blurredBesideScratch : List Call :=
  [.rebuild "item-1", .ingest (clearSeen "e-1" 10 .poor none) 10, .ingest (scratchSeen "e-2" 10) 11]

/-- The blurred GOOD is marked, and the scratch with it. -/
theorem conflict_marks_blurred : ¬ ∀ (db : Database) (itemId : String), Reachable db →
    List.Forall₂ (MarkedExactly (judged db itemId)) (judged db itemId) (replay db itemId).observations := by
  intro h
  have hmarks := forall_marked_iff.mp (h (run {} blurredBesideScratch) "item-1" ⟨{}, _, ⟨{}, _, rfl⟩, rfl⟩)
  obtain ⟨obs, hobs, hblurred, hmarked⟩ :
      ∃ obs ∈ judged (run {} blurredBesideScratch) "item-1", obs.trustStatus = .untrusted ∧
        (afterConflicts (judged (run {} blurredBesideScratch) "item-1") obs).trustStatus = .conflicted := by
    decide +kernel
  have htrusted := ((hmarks obs hobs).eligible hmarked).1
  rw [hblurred] at htrusted
  cases htrusted

/-! ## Opposing observations of one moment -/

/-- The capture session, where one is named. -/
def sessionOf (obs : ObservationValue) : Option String :=
  obs.payload.captureSessionId.filter fun session => !session.isEmpty

/-- A GOOD and a DEFECT of one moment, control point and component that are trusted on their own. -/
structure OpposingPair (observations : List ObservationValue) (good defect : ObservationValue) : Prop where
  good_mem : good ∈ observations
  defect_mem : defect ∈ observations
  time : good.occurredAt = defect.occurredAt
  controlPoint : good.payload.controlPointId = defect.payload.controlPointId
  component : good.payload.componentInstanceId = defect.payload.componentInstanceId
  good_result : good.payload.inspectionResult = .noDefect
  defect_result : defect.payload.inspectionResult = .defectDetected
  good_trusted : good.trustStatus = .trusted
  defect_trusted : defect.trustStatus = .trusted

theorem conflictKey_of_session {a b : ObservationValue} (htime : a.occurredAt = b.occurredAt)
    (hpoint : a.payload.controlPointId = b.payload.controlPointId)
    (hcomponent : a.payload.componentInstanceId = b.payload.componentInstanceId)
    (hsession : sessionOf a = sessionOf b) : conflictKey a = conflictKey b := by
  have hgroup : ∀ obs : ObservationValue, conflictKey obs =
      ((sessionOf obs).elim (.inr (timeBucket obs.occurredAt)) .inl, obs.payload.controlPointId,
        obs.payload.componentInstanceId) := by
    intro obs
    rw [conflictKey, sessionOf]
    cases obs.payload.captureSessionId with
    | none => rfl
    | some session => cases hempty : session.isEmpty <;> simp [Option.filter, hempty]
  rw [hgroup a, hgroup b, hsession, htime, hpoint, hcomponent]

/-- Observations of one item come from different events. -/
theorem judged_eventId {db : Database} (h : Reachable db) {itemId : String} {a b : ObservationValue}
    (ha : a ∈ judged db itemId) (hb : b ∈ judged db itemId) (hid : a.eventId = b.eventId) : a = b := by
  obtain ⟨raw, hraw, payload, hpayload, rfl⟩ := mem_judged.mp ha
  obtain ⟨raw', hraw', payload', hpayload', rfl⟩ := mem_judged.mp hb
  obtain rfl := eq_of_nodup_map (reachable_sources h).event_ids (List.mem_of_mem_filter hraw)
    (List.mem_of_mem_filter hraw') hid
  obtain rfl := Payload.inspectionResult.inj (hpayload.symm.trans hpayload')
  rfl

/-- What the pass leaves of an observation. -/
theorem replayed_distrusts_iff {db : Database} (hdb : Reachable db) {itemId : String} {obs : ObservationValue}
    (hobs : obs ∈ judged db itemId) :
    (∀ value ∈ (replay db itemId).observations, value.eventId = obs.eventId → value.trustStatus ≠ .trusted) ↔
      (afterConflicts (judged db itemId) obs).trustStatus ≠ .trusted := by
  have hid : ∀ other : ObservationValue, (afterConflicts (judged db itemId) other).eventId = other.eventId := by
    intro other
    rw [afterConflicts]
    split <;> rfl
  rw [replay_observations_eq]
  constructor
  · exact fun hnone => hnone _ (List.mem_map_of_mem hobs) (hid obs)
  · intro hmarked value hvalue hsame
    obtain ⟨other, hother, rfl⟩ := List.mem_map.mp hvalue
    obtain rfl := judged_eventId hdb hother hobs ((hid other).symm.trans hsame)
    exact hmarked

/-- Neither the values a rebuild of the item computes nor the rows it leaves trust the observation. -/
def Distrusted (db : Database) (itemId : String) (obs : ObservationValue) : Prop :=
  (∀ value ∈ (replay db itemId).observations, value.eventId = obs.eventId → value.trustStatus ≠ .trusted) ∧
    ∀ row ∈ (rebuildOrMark db itemId).observations, row.itemId = itemId → row.eventId = obs.eventId →
      row.trustStatus ≠ .trusted

/-- The observation is stored as trusted. -/
def StoredTrusted (db : Database) (itemId : String) (obs : ObservationValue) : Prop :=
  ∃ row ∈ db.observations, row.itemId = itemId ∧ row.eventId = obs.eventId ∧ row.trustStatus = .trusted

/-- The rebuild of an item whose history detects a defect leaves the rows as they are. -/
theorem observations_of_detected {db : Database} (horder : db.insertOrder = .byClassName) {itemId : String}
    {defect : ObservationValue} (hdefect : defect ∈ judged db itemId)
    (hresult : defect.payload.inspectionResult = .defectDetected) :
    (rebuildOrMark db itemId).observations = db.observations := by
  rw [rebuildOrMark]
  cases h : rebuildItem db itemId with
  | ok rebuilt =>
    obtain ⟨raw, hraw, payload, hpayload, rfl⟩ := mem_judged.mp hdefect
    have hnone := rebuildItem_lists_nothing horder h raw hraw
    rw [hpayload] at hnone
    exact absurd hnone (payload.validate_defects.mp hresult)
  | error e => rfl

/-- No simultaneous opposing observation is trusted after a rebuild exactly when the two always belong to the
same capture session, or to none, or another result was reported in the group of each, and neither of them has
been stored as trusted by an earlier rebuild. -/
theorem simultaneous_opposition_iff {db : Database} (hdb : Reachable db) (horder : db.insertOrder = .byClassName)
    (itemId : String) :
    (∀ good defect, OpposingPair (judged db itemId) good defect → ∀ obs ∈ [good, defect],
      Distrusted db itemId obs) ↔
    ∀ good defect, OpposingPair (judged db itemId) good defect →
      (sessionOf good = sessionOf defect ∨
        (Contradicted (judged db itemId) good ∧ Contradicted (judged db itemId) defect)) ∧
      ∀ obs ∈ [good, defect], ¬ StoredTrusted db itemId obs := by
  have hpair : ∀ good defect, OpposingPair (judged db itemId) good defect →
      ((∀ obs ∈ [good, defect], Distrusted db itemId obs) ↔
        (Contradicted (judged db itemId) good ∧ Contradicted (judged db itemId) defect) ∧
          ∀ obs ∈ [good, defect], ¬ StoredTrusted db itemId obs) := by
    intro good defect hp
    have hrows : ∀ obs, (∀ row ∈ (rebuildOrMark db itemId).observations, row.itemId = itemId →
        row.eventId = obs.eventId → row.trustStatus ≠ .trusted) ↔ ¬ StoredTrusted db itemId obs := by
      intro obs
      rw [observations_of_detected horder hp.defect_mem hp.defect_result]
      simp only [StoredTrusted, not_exists, not_and, ne_eq]
    simp only [List.forall_mem_cons, Distrusted, hrows, List.not_mem_nil, false_implies, implies_true, and_true]
    rw [replayed_distrusts_iff hdb hp.good_mem, replayed_distrusts_iff hdb hp.defect_mem, ne_eq, ne_eq,
      afterConflicts_trusted_iff hp.good_mem, afterConflicts_trusted_iff hp.defect_mem,
      and_iff_right hp.good_trusted, and_iff_right hp.defect_trusted, not_not, not_not]
    exact and_and_and_comm
  constructor
  · intro hall good defect hp
    obtain ⟨hboth, hstored⟩ := (hpair good defect hp).mp (hall good defect hp)
    exact ⟨.inr hboth, hstored⟩
  · intro hall good defect hp
    obtain ⟨hgroups, hstored⟩ := hall good defect hp
    refine (hpair good defect hp).mpr ⟨?_, hstored⟩
    rcases hgroups with hsession | hboth
    · have hkey := conflictKey_of_session hp.time hp.controlPoint hp.component hsession
      have hresult : good.payload.inspectionResult ≠ defect.payload.inspectionResult := by
        rw [hp.good_result, hp.defect_result]
        decide
      exact ⟨⟨defect, hp.defect_mem, hkey.symm, hresult.symm⟩, ⟨good, hp.good_mem, hkey, hresult⟩⟩
    · exact hboth

/-! ### A GOOD of a named session -/

/-- The GOOD and the scratch are of one moment; only the GOOD names its session, if any. -/
def clearBesideScratch (session : Option String) : List Call :=
  [.rebuild "item-1", .ingest (clearSeen "e-1" 10 .good session) 10, .ingest (scratchSeen "e-2" 10) 11]

theorem clearBesideScratch_reachable (session : Option String) :
    Reachable (run {} (clearBesideScratch session)) :=
  ⟨{}, _, ⟨{}, _, rfl⟩, rfl⟩

theorem simultaneous_opposition_iff_one_bucket :
    (∀ good defect, OpposingPair (judged (run {} (clearBesideScratch none)) "item-1") good defect →
      ∀ obs ∈ [good, defect], Distrusted (run {} (clearBesideScratch none)) "item-1" obs) ↔
    ∀ good defect, OpposingPair (judged (run {} (clearBesideScratch none)) "item-1") good defect →
      (sessionOf good = sessionOf defect ∨
        (Contradicted (judged (run {} (clearBesideScratch none)) "item-1") good ∧
          Contradicted (judged (run {} (clearBesideScratch none)) "item-1") defect)) ∧
      ∀ obs ∈ [good, defect], ¬ StoredTrusted (run {} (clearBesideScratch none)) "item-1" obs :=
  simultaneous_opposition_iff (clearBesideScratch_reachable none) (by decide +kernel) "item-1"

/-- The GOOD is stored before the scratch of the same moment arrives. -/
def clearBeforeScratch : List Call :=
  [.rebuild "item-1", .ingest (clearSeen "e-1" 10 .good none) 10, .rebuild "item-1",
    .ingest (scratchSeen "e-2" 10) 11]

/-- The facts that make two observations an opposing pair. -/
def opposing (good defect : ObservationValue) : Prop :=
  (good.occurredAt = defect.occurredAt ∧ good.payload.controlPointId = defect.payload.controlPointId ∧
    good.payload.componentInstanceId = defect.payload.componentInstanceId) ∧
  (good.payload.inspectionResult = .noDefect ∧ defect.payload.inspectionResult = .defectDetected) ∧
  good.trustStatus = .trusted ∧ defect.trustStatus = .trusted

instance (good defect : ObservationValue) : Decidable (opposing good defect) := by
  unfold opposing
  infer_instance

theorem opposingPair_of_facts {observations : List ObservationValue} {good defect : ObservationValue}
    (hgood : good ∈ observations) (hdefect : defect ∈ observations) (h : opposing good defect) :
    OpposingPair observations good defect := by
  obtain ⟨⟨htime, hpoint, hcomponent⟩, ⟨hresult, hresult'⟩, htrust, htrust'⟩ := h
  exact ⟨hgood, hdefect, htime, hpoint, hcomponent, hresult, hresult', htrust, htrust'⟩

/-- Named by one of the two only, the session separates them, and the pass leaves both trusted; and a GOOD that was
stored before the scratch arrives stays trusted after the rebuild. -/
theorem simultaneous_opposition_trusted :
    (¬ ∀ (db : Database) (itemId : String), Reachable db → db.insertOrder = .byClassName →
      ∀ good defect, OpposingPair (judged db itemId) good defect → ∀ value ∈ (replay db itemId).observations,
        value.eventId = good.eventId → value.trustStatus ≠ .trusted) ∧
    ¬ ∀ (db : Database) (itemId : String), Reachable db → db.insertOrder = .byClassName →
      ∀ good defect, OpposingPair (judged db itemId) good defect →
        ∀ row ∈ (rebuildOrMark db itemId).observations, row.itemId = itemId → row.eventId = good.eventId →
          row.trustStatus ≠ .trusted := by
  constructor
  · intro h
    obtain ⟨good, hgood, defect, hdefect, hfacts, value, hvalue, hid, htrusted⟩ :
        ∃ good ∈ judged (run {} (clearBesideScratch (some "session-1"))) "item-1",
        ∃ defect ∈ judged (run {} (clearBesideScratch (some "session-1"))) "item-1", opposing good defect ∧
          ∃ value ∈ (replay (run {} (clearBesideScratch (some "session-1"))) "item-1").observations,
            value.eventId = good.eventId ∧ value.trustStatus = .trusted := by
      decide +kernel
    exact h _ "item-1" (clearBesideScratch_reachable (some "session-1")) (by decide +kernel) good defect
      (opposingPair_of_facts hgood hdefect hfacts) value hvalue hid htrusted
  · intro h
    have hreachable : Reachable (run {} clearBeforeScratch) := ⟨{}, clearBeforeScratch, ⟨{}, _, rfl⟩, rfl⟩
    obtain ⟨good, hgood, defect, hdefect, hfacts, row, hrow, hitem, hid, htrusted⟩ :
        ∃ good ∈ judged (run {} clearBeforeScratch) "item-1",
        ∃ defect ∈ judged (run {} clearBeforeScratch) "item-1", opposing good defect ∧
          ∃ row ∈ (rebuildOrMark (run {} clearBeforeScratch) "item-1").observations,
            row.itemId = "item-1" ∧ row.eventId = good.eventId ∧ row.trustStatus = .trusted := by
      decide +kernel
    exact h _ "item-1" hreachable (by decide +kernel) good defect (opposingPair_of_facts hgood hdefect hfacts) row
      hrow hitem hid htrusted

end TraceQ.Properties
