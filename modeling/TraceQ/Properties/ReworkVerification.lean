import TraceQ.Properties.ReleaseGate

/-! # What a passed verification proves

A verification asks for any trusted GOOD of the item after the rework. It looks neither at what that
inspection covers nor at defects seen later, so it proves the rework exactly when the latest capable
GOOD happens to be the last word on the defect.
-/
namespace TraceQ.Properties
open Projections Ingestion Api Quality Tables Results Backend
set_option autoImplicit false
set_option maxHeartbeats 250000

/-! ## Observations that count -/

/-- The observations the endpoint looks for. -/
def isGoodAfter (itemId : String) (finishedAt : Instant) (obs : Observation) : Prop :=
  obs.itemId = itemId ∧ finishedAt ≤ obs.occurredAt ∧ obs.inspectionResult = .noDefect ∧
    obs.trustStatus = .trusted

instance (itemId : String) (finishedAt : Instant) (obs : Observation) :
    Decidable (isGoodAfter itemId finishedAt obs) := by unfold isGoodAfter; infer_instance

/-- Whether the inspection could have seen the defect, as a birth window asks of a GOOD. -/
def capable (key : DefectKey) (obs : Observation) : Bool :=
  decide (scopeCovers obs.inspectionScope key.defectType key.componentInstanceId = .ok true) &&
    decide (obs.componentInstanceId = none ∨ obs.componentInstanceId = key.componentInstanceId ∨
      key.componentInstanceId = none)

/-- Whether the observation is a trusted detection of the defect. -/
def detects (db : Database) (ncr : Nonconformance) (obs : Observation) : Bool :=
  decide (obs.itemId = ncr.itemId ∧ obs.inspectionResult = .defectDetected ∧
    obs.trustStatus = .trusted) &&
    db.defectObservations.any fun row => decide (row.observationId = obs.id ∧
      row.defectType = ncr.defectType ∧ row.componentInstanceId = ncr.componentInstanceId)

/-- After the rework a capable trusted GOOD is followed by no trusted detection of the defect. -/
def ReworkProven (db : Database) (ncr : Nonconformance) (finishedAt : Instant) : Prop :=
  ∃ good ∈ db.observations, isGoodAfter ncr.itemId finishedAt good ∧ capable ncr.key good = true ∧
    ∀ bad ∈ db.observations, detects db ncr bad = true → ¬ good.occurredAt ≤ bad.occurredAt

/-! ## The last word on the defect -/

/-- The latest capable trusted GOOD after the rework. -/
def lastCapable (db : Database) (ncr : Nonconformance) (finishedAt : Instant) : Option Observation :=
  latestBy (·.occurredAt) (db.observations.filter fun obs =>
    decide (isGoodAfter ncr.itemId finishedAt obs) && capable ncr.key obs)

/-- The latest trusted detection of the defect. -/
def lastDetection (db : Database) (ncr : Nonconformance) : Option Observation :=
  latestBy (·.occurredAt) (db.observations.filter (detects db ncr))

/-- The latest capable GOOD is later than the latest detection. -/
def lastWordGood (db : Database) (ncr : Nonconformance) (finishedAt : Instant) : Bool :=
  (lastCapable db ncr finishedAt).any fun good =>
    (lastDetection db ncr).all fun bad => decide (bad.occurredAt < good.occurredAt)

theorem reworkProven_iff {db : Database} {ncr : Nonconformance} {finishedAt : Instant} :
    ReworkProven db ncr finishedAt ↔ lastWordGood db ncr finishedAt = true := by
  rw [lastWordGood, Option.any_eq_true]
  constructor
  · rintro ⟨good, hgood, hafter, hcapable, hnone⟩
    have hmem : good ∈ db.observations.filter fun obs =>
        decide (isGoodAfter ncr.itemId finishedAt obs) && capable ncr.key obs :=
      List.mem_filter.mpr ⟨hgood, by simp [hafter, hcapable]⟩
    cases hlast : lastCapable db ncr finishedAt with
    | none =>
      rw [lastCapable, latestBy_eq_none] at hlast
      rw [hlast] at hmem
      cases hmem
    | some latest =>
      refine ⟨latest, rfl, ?_⟩
      have hle : good.occurredAt ≤ latest.occurredAt := latestBy_le hlast hmem
      rw [Option.all_eq_true]
      intro bad hbad
      obtain ⟨hbadMem, hdetects⟩ := List.mem_filter.mp (latestBy_mem hbad)
      rw [decide_eq_true_eq]
      exact (not_le.mp (hnone bad hbadMem hdetects)).trans_le hle
  · rintro ⟨good, hlast, hall⟩
    obtain ⟨hmem, hfound⟩ := List.mem_filter.mp (latestBy_mem hlast)
    rw [Bool.and_eq_true, decide_eq_true_eq] at hfound
    refine ⟨good, hmem, hfound.1, hfound.2, fun bad hbad hdetects hle => ?_⟩
    have hbadMem : bad ∈ db.observations.filter (detects db ncr) :=
      List.mem_filter.mpr ⟨hbad, hdetects⟩
    cases hdetection : lastDetection db ncr with
    | none =>
      rw [lastDetection, latestBy_eq_none] at hdetection
      rw [hdetection] at hbadMem
      cases hbadMem
    | some latest =>
      have hlate : latest.occurredAt < good.occurredAt := by
        simpa [hdetection] using hall
      have hbadLe : bad.occurredAt ≤ latest.occurredAt := latestBy_le hdetection hbadMem
      exact absurd (hbadLe.trans_lt hlate) hle.not_gt

/-! ## Verifications that pass -/

theorem trustedGood_eq_none {db : Database} {itemId : String} {finishedAt : Instant} :
    trustedGood db itemId finishedAt = none ↔
      ∀ obs ∈ db.observations, ¬ isGoodAfter itemId finishedAt obs := by
  rw [trustedGood, latestBy_eq_none, List.filter_eq_nil_iff]
  simp only [decide_eq_true_eq, isGoodAfter]

/-- A verification that asks for PASSED gets it unproven exactly when there is a trusted GOOD after
the rework, but the latest capable one is missing or not later than every detection. -/
theorem rework_proven_iff {db : Database} {ncrId : Uuid} {ncr : Nonconformance}
    (hncr : ncrOr404 db ncrId = .ok ncr) (reason : String) (userId : Uuid) (now : Instant) :
    (∀ db' answer finishedAt, verifyRework db ncrId ⟨true, reason⟩ userId now = .ok (db', answer) →
      answer.verificationStatus = .passed → reworkFinish db ncr = .ok finishedAt →
      ReworkProven db ncr finishedAt) ↔
    ∀ finishedAt, ensureEvidenceIntegrity db ncr.itemId = .ok () →
      reworkFinish db ncr = .ok finishedAt →
      (∀ obs ∈ db.observations, ¬ isGoodAfter ncr.itemId finishedAt obs) ∨
        lastWordGood db ncr finishedAt = true := by
  constructor
  · intro h finishedAt hevidence hfinish
    by_cases hnone : trustedGood db ncr.itemId finishedAt = none
    · exact .inl (trustedGood_eq_none.mp hnone)
    · have hsome : (trustedGood db ncr.itemId finishedAt).isSome = true :=
        Option.isSome_iff_ne_none.mpr hnone
      obtain ⟨db', answer, hok, hpassed⟩ := (verifyRework_passes_iff hncr ⟨true, reason⟩ userId now).mpr
        ⟨hevidence, finishedAt, hfinish, by simp [hsome]⟩
      exact .inr (reworkProven_iff.mp (h db' answer finishedAt hok hpassed hfinish))
  · intro h db' answer finishedAt hok hpassed hfinish
    obtain ⟨hevidence, finish, hfinish', hpass⟩ :=
      (verifyRework_passes_iff hncr _ _ _).mp ⟨db', answer, hok, hpassed⟩
    obtain rfl := Except.ok.inj (hfinish.symm.trans hfinish')
    rcases h finishedAt hevidence hfinish with hnone | hgood
    · rw [trustedGood_eq_none.mpr hnone] at hpass
      simp at hpass
    · exact reworkProven_iff.mpr hgood

/-! ### A rework after which the scratch is seen again -/

/-- The scratch is reworked and a later inspection finds nothing. -/
def reworkedScratch : List Call := analysedScratch ++ .decide 1 reworkIt 100 20 :: reworked

/-- The scratch is seen again after that inspection. -/
def renewedScratch : List Call :=
  reworkedScratch ++ [.ingest (scratchSeen "e-6" 1800000000) 1800000001, .rebuild "item-1"]

/-- The nonconformance that awaits verification. -/
def reworkNcr (version : ℕ) : Nonconformance :=
  { scratchNcr with
    verdict := .confirmed
    disposition := .reworkRequired
    containment := .hold
    currentAnalysisVersion := version
    resolutionType := some .rework
    verificationStatus := some .pending }

theorem rework_proven_iff_reworked_scratch :
    ReworkProven (shipped (run parentsFirst reworkedScratch)) (reworkNcr 1) 40 := by
  have hncr : ncrOr404 (shipped (run parentsFirst reworkedScratch)) 1 = .ok (reworkNcr 1) := by decide +kernel
  have hfinish : reworkFinish (shipped (run parentsFirst reworkedScratch)) (reworkNcr 1) = .ok 40 := by
    decide +kernel
  obtain ⟨db', answer, hok, hpassed⟩ := (verifyRework_passes_iff hncr verified 100 900000002).mpr
    ⟨by decide +kernel, 40, hfinish, by decide +kernel⟩
  refine (rework_proven_iff hncr "clean" 100 900000002).mpr ?_ db' answer 40 hok hpassed hfinish
  intro finishedAt _ hfinish'
  obtain rfl := Except.ok.inj (hfinish.symm.trans hfinish')
  exact .inr (by decide +kernel)

/-- A verification passes although the defect was seen again after the GOOD it rests on. -/
theorem renewed_scratch_passes : ¬ ∀ (db db' : Database) (ncrId userId : Uuid)
    (ncr : Nonconformance) (reason : String) (now finishedAt : Instant)
    (answer : VerificationResponse), Sound db → ncrOr404 db ncrId = .ok ncr →
    verifyRework db ncrId ⟨true, reason⟩ userId now = .ok (db', answer) →
    answer.verificationStatus = .passed → reworkFinish db ncr = .ok finishedAt →
    ReworkProven db ncr finishedAt := by
  intro h
  have hreachable : Reachable (run parentsFirst renewedScratch) := ⟨_, renewedScratch, initial_parentsFirst, rfl⟩
  have hncr : ncrOr404 (shipped (run parentsFirst renewedScratch)) 1 = .ok (reworkNcr 2) := by decide +kernel
  have hfinish : reworkFinish (shipped (run parentsFirst renewedScratch)) (reworkNcr 2) = .ok 40 := by
    decide +kernel
  obtain ⟨db', answer, hok, hpassed⟩ := (verifyRework_passes_iff hncr verified 100 1800000002).mpr
    ⟨by decide +kernel, 40, hfinish, by decide +kernel⟩
  have hproven := h _ db' 1 100 (reworkNcr 2) "clean" 1800000002 40 answer
    (sound_shipped (reachable_sound hreachable)) hncr hok hpassed hfinish
  have hlast : lastWordGood (shipped (run parentsFirst renewedScratch)) (reworkNcr 2) 40 = false := by
    decide +kernel
  rw [reworkProven_iff.mp hproven] at hlast
  cases hlast

end TraceQ.Properties
