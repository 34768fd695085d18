import TraceQ.Projections.ReplayMeaning

/-! # The conflict pass

Every stored inspection is judged on its own first; then a group of equivalent observations with more than
one result loses its trust. Which observations that are is read off the judged ones.
-/
namespace TraceQ.Projections
open Quality Tables
set_option autoImplicit false
set_option maxHeartbeats 250000

/-- The observations of the item as `evaluate_trust` leaves them, in business order. -/
def judged (db : Database) (itemId : String) : List ObservationValue :=
  (history db itemId).filterMap (inspected db)

theorem mem_judged {db : Database} {itemId : String} {obs : ObservationValue} :
    obs ∈ judged db itemId ↔
      ∃ raw ∈ storedEvents db itemId, ∃ payload, raw.payload = .inspectionResult payload ∧
        obs = observationValue db raw payload := by
  rw [judged, List.mem_filterMap]
  constructor
  · rintro ⟨raw, hraw, hinspected⟩
    refine ⟨raw, mem_history.mp hraw, ?_⟩
    cases hpayload : raw.payload with
    | inspectionResult payload =>
      simp only [inspected, hpayload, Option.some.injEq] at hinspected
      exact ⟨payload, rfl, hinspected.symm⟩
    | _ => simp [inspected, hpayload] at hinspected
  · rintro ⟨raw, hraw, payload, hpayload, rfl⟩
    exact ⟨raw, mem_history.mpr hraw, by simp only [inspected, hpayload]⟩

/-! ## Groups with more than one result -/

theorem not_opposed_iff {group : List ObservationValue} :
    opposed group = false ↔ ∀ a ∈ group, ∀ b ∈ group,
      a.payload.inspectionResult = b.payload.inspectionResult := by
  rw [opposed, decide_eq_false_iff_not, not_lt]
  constructor
  · intro hlength a ha b hb
    have hmem : ∀ obs ∈ group,
        obs.payload.inspectionResult ∈ (group.map (·.payload.inspectionResult)).dedup :=
      fun obs hobs => List.mem_dedup.mpr (List.mem_map_of_mem hobs)
    have hmemA := hmem a ha
    have hmemB := hmem b hb
    rcases Nat.le_one_iff_eq_zero_or_eq_one.mp hlength with hzero | hone
    · rw [List.eq_nil_of_length_eq_zero hzero] at hmemA
      cases hmemA
    · obtain ⟨x, hx⟩ := List.length_eq_one_iff.mp hone
      rw [hx, List.mem_singleton] at hmemA hmemB
      rw [hmemA, hmemB]
  · intro hequal
    have hnodup := List.nodup_dedup (group.map (·.payload.inspectionResult))
    have hall : ∀ x ∈ (group.map (·.payload.inspectionResult)).dedup,
        ∀ y ∈ (group.map (·.payload.inspectionResult)).dedup, x = y := by
      intro x hx y hy
      obtain ⟨a, ha, rfl⟩ := List.mem_map.mp (List.mem_dedup.mp hx)
      obtain ⟨b, hb, rfl⟩ := List.mem_map.mp (List.mem_dedup.mp hy)
      exact hequal a ha b hb
    cases hresults : (group.map (·.payload.inspectionResult)).dedup with
    | nil => exact Nat.zero_le 1
    | cons x rest =>
      rw [hresults] at hnodup hall
      cases rest with
      | nil => exact le_rfl
      | cons y rest =>
        have hxy := hall x List.mem_cons_self y (List.mem_cons_of_mem _ List.mem_cons_self)
        exact absurd (hxy ▸ List.mem_cons_self) (List.nodup_cons.mp hnodup).1

/-- Another result was reported in the conflict group of `obs`. -/
def Contradicted (observations : List ObservationValue) (obs : ObservationValue) : Prop :=
  ∃ other ∈ observations, conflictKey other = conflictKey obs ∧
    other.payload.inspectionResult ≠ obs.payload.inspectionResult

theorem mem_conflictGroup {observations : List ObservationValue} {obs other : ObservationValue} :
    other ∈ conflictGroup observations obs ↔
      other ∈ observations ∧ conflictKey other = conflictKey obs := by
  rw [conflictGroup, List.mem_filter, decide_eq_true_eq]

theorem opposed_iff {observations : List ObservationValue} {obs : ObservationValue}
    (hobs : obs ∈ observations) :
    opposed (conflictGroup observations obs) = true ↔ Contradicted observations obs := by
  rw [← not_iff_not, Bool.not_eq_true, not_opposed_iff]
  constructor
  · rintro h ⟨other, hother, hkey, hresult⟩
    exact hresult (h other (mem_conflictGroup.mpr ⟨hother, hkey⟩) obs (mem_conflictGroup.mpr ⟨hobs, rfl⟩))
  · intro h a ha b hb
    have hequal : ∀ other ∈ conflictGroup observations obs,
        other.payload.inspectionResult = obs.payload.inspectionResult := by
      intro other hother
      obtain ⟨hmem, hkey⟩ := mem_conflictGroup.mp hother
      by_contra hresult
      exact h ⟨other, hmem, hkey, hresult⟩
    rw [hequal a ha, hequal b hb]

/-! ## What the pass makes of one observation -/

/-- `obs` after the pass over `observations`. -/
def afterConflicts (observations : List ObservationValue) (obs : ObservationValue) : ObservationValue :=
  if opposed (conflictGroup observations obs) then
    { obs with
      trustStatus := .conflicted
      trustReasons := [.equivalentObservationsConflict] }
  else obs

theorem replay_observations_eq (db : Database) (itemId : String) :
    (replay db itemId).observations = (judged db itemId).map (afterConflicts (judged db itemId)) :=
  replay_observations db itemId

theorem afterConflicts_of_contradicted {observations : List ObservationValue} {obs : ObservationValue}
    (hobs : obs ∈ observations) (h : Contradicted observations obs) :
    (afterConflicts observations obs).trustStatus = .conflicted := by
  rw [afterConflicts, if_pos ((opposed_iff hobs).mpr h)]

theorem afterConflicts_of_agreed {observations : List ObservationValue} {obs : ObservationValue}
    (hobs : obs ∈ observations) (h : ¬ Contradicted observations obs) :
    afterConflicts observations obs = obs := by
  rw [afterConflicts, if_neg fun hopposed => h ((opposed_iff hobs).mp hopposed)]

/-- An observation is trusted afterwards when it was before and no equivalent one reports another result. -/
theorem afterConflicts_trusted_iff {observations : List ObservationValue} {obs : ObservationValue}
    (hobs : obs ∈ observations) : (afterConflicts observations obs).trustStatus = .trusted ↔
      obs.trustStatus = .trusted ∧ ¬ Contradicted observations obs := by
  by_cases h : Contradicted observations obs
  · rw [afterConflicts_of_contradicted hobs h]
    exact iff_of_false nofun fun hboth => hboth.2 h
  · rw [afterConflicts_of_agreed hobs h]
    exact ⟨fun htrust => ⟨htrust, h⟩, fun hboth => hboth.1⟩

theorem mem_markConflicts_trusted {observations : List ObservationValue} {obs : ObservationValue} :
    obs ∈ markConflicts observations ∧ obs.trustStatus = .trusted ↔
      obs ∈ observations ∧ obs.trustStatus = .trusted ∧ ¬ Contradicted observations obs := by
  constructor
  · rintro ⟨hmem, htrust⟩
    obtain ⟨old, hold, rfl⟩ := List.mem_map.mp hmem
    obtain ⟨holdTrust, hagreed⟩ := (afterConflicts_trusted_iff hold).mp htrust
    have hsame := afterConflicts_of_agreed hold hagreed
    rw [afterConflicts] at hsame
    rw [hsame]
    exact ⟨hold, holdTrust, hagreed⟩
  · rintro ⟨hobs, htrust, hagreed⟩
    exact ⟨List.mem_map.mpr ⟨obs, hobs, afterConflicts_of_agreed hobs hagreed⟩, htrust⟩

end TraceQ.Projections
