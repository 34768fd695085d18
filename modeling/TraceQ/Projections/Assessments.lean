import TraceQ.Projections.ReplayMeaning

/-! # When two sightings are assessed alike

Only trusted and invalidated sightings are assessed. Two sightings of one defect get the same
assessment exactly when they have the same trust and, if they are trusted, the same time.
-/
namespace TraceQ.Projections
open Quality Tables Results
set_option autoImplicit false
set_option maxHeartbeats 250000

/-- The trust statuses that have a branch in the loop. -/
def isAssessed (sighting : Sighting) : Bool :=
  sighting.observation.trustStatus == .trusted || sighting.observation.trustStatus == .invalidated

/-- Same trust and, if trusted, same time. -/
def Agree (s t : Sighting) : Prop :=
  s.observation.trustStatus = t.observation.trustStatus ∧
    (s.observation.trustStatus = .trusted → s.occurredAt = t.occurredAt)

instance (s t : Sighting) : Decidable (Agree s t) := by unfold Agree; infer_instance

/-! ## One sighting -/

theorem isAssessed_iff {sighting : Sighting} : isAssessed sighting = true ↔
    sighting.observation.trustStatus = .trusted ∨
      sighting.observation.trustStatus = .invalidated := by
  simp [isAssessed]

theorem assessed_invalidated {context : AnalysisContext} {sighting : Sighting}
    (h : sighting.observation.trustStatus = .invalidated) :
    assessed context sighting = some invalidatedAssessment :=
  assessed_of_ok (by simp only [assess, h])

/-- A trusted sighting is assessed as its birth window. -/
theorem assess_trusted {context : AnalysisContext} {sighting : Sighting} {a : Option Assessment}
    (h : sighting.observation.trustStatus = .trusted) (hok : assess context sighting = .ok a) :
    ∃ result, calculateBirthWindow sighting context = .ok result ∧ a = some result.assessment := by
  simp only [assess, h] at hok
  obtain ⟨result, hresult, ha⟩ := map_ok.mp hok
  exact ⟨result, hresult, ha.symm⟩

theorem assessed_trusted {context : AnalysisContext} {sighting : Sighting}
    {result : BirthWindowResult} (h : sighting.observation.trustStatus = .trusted)
    (hresult : calculateBirthWindow sighting context = .ok result) :
    assessed context sighting = some result.assessment :=
  assessed_of_ok (by simp only [assess, h, hresult, Except.map])

theorem assessed_eq_none {context : AnalysisContext} {sighting : Sighting}
    (h : isAssessed sighting = false) : assessed context sighting = none := by
  refine assessed_of_ok ?_
  cases htrust : sighting.observation.trustStatus <;> simp_all [isAssessed, assess]

theorem assessed_isSome {context : AnalysisContext} {sighting : Sighting}
    (hok : ∃ a, assess context sighting = .ok a) :
    (assessed context sighting).isSome = isAssessed sighting := by
  cases h : isAssessed sighting with
  | false => rw [assessed_eq_none h]; rfl
  | true =>
    rcases isAssessed_iff.mp h with htrust | htrust
    · obtain ⟨a, ha⟩ := hok
      obtain ⟨result, hresult, -⟩ := assess_trusted htrust ha
      rw [assessed_trusted htrust hresult]
      rfl
    · rw [assessed_invalidated htrust]
      rfl

/-- A computed window ends at its sighting and is never an invalidation. -/
theorem birthWindow_right {sighting : Sighting} {context : AnalysisContext}
    {result : BirthWindowResult} (h : calculateBirthWindow sighting context = .ok result) :
    result.assessment.rightBoundaryAt = some sighting.occurredAt ∧
      result.assessment.status ≠ .evidenceInvalidated := by
  obtain ⟨found, -, hwindow⟩ := calculateBirthWindow_ok h
  rw [hwindow]
  exact ⟨rfl, window_status _ _⟩

/-- Windows of one defect at one time are equal. -/
theorem birthWindow_congr {s t : Sighting} {context : AnalysisContext} {r r' : BirthWindowResult}
    (hkey : s.key = t.key) (htime : s.occurredAt = t.occurredAt)
    (hs : calculateBirthWindow s context = .ok r) (ht : calculateBirthWindow t context = .ok r') :
    r.assessment = r'.assessment := by
  obtain ⟨found, hfound, hr⟩ := calculateBirthWindow_ok hs
  obtain ⟨found', hfound', hr'⟩ := calculateBirthWindow_ok ht
  rw [hkey, htime, hfound'] at hfound
  rw [hr, hr', htime, Except.ok.inj hfound]

/-! ## Two sightings -/

theorem assessed_eq_iff {context : AnalysisContext} {s t : Sighting} (hkey : s.key = t.key)
    (hs : isAssessed s = true) (ht : isAssessed t = true)
    (hsok : ∃ a, assess context s = .ok a) (htok : ∃ a, assess context t = .ok a) :
    assessed context s = assessed context t ↔ Agree s t := by
  obtain ⟨a, ha⟩ := hsok
  obtain ⟨b, hb⟩ := htok
  rcases isAssessed_iff.mp hs with hstrust | hstrust <;>
    rcases isAssessed_iff.mp ht with httrust | httrust
  · obtain ⟨r, hr, -⟩ := assess_trusted hstrust ha
    obtain ⟨r', hr', -⟩ := assess_trusted httrust hb
    rw [assessed_trusted hstrust hr, assessed_trusted httrust hr', Option.some.injEq]
    constructor
    · intro heq
      refine ⟨hstrust.trans httrust.symm, fun _ => ?_⟩
      have hright := (birthWindow_right hr).1
      rw [heq, (birthWindow_right hr').1] at hright
      exact (Option.some.inj hright).symm
    · rintro ⟨-, htime⟩
      exact birthWindow_congr hkey (htime hstrust) hr hr'
  · obtain ⟨r, hr, -⟩ := assess_trusted hstrust ha
    rw [assessed_trusted hstrust hr, assessed_invalidated httrust]
    refine iff_of_false (fun heq => ?_) fun hagree => ?_
    · exact (birthWindow_right hr).2 (by rw [Option.some.inj heq]; rfl)
    · rw [Agree, hstrust, httrust] at hagree
      cases hagree.1
  · obtain ⟨r', hr', -⟩ := assess_trusted httrust hb
    rw [assessed_invalidated hstrust, assessed_trusted httrust hr']
    refine iff_of_false (fun heq => ?_) fun hagree => ?_
    · exact (birthWindow_right hr').2 (by rw [← Option.some.inj heq]; rfl)
    · rw [Agree, hstrust, httrust] at hagree
      cases hagree.1
  · rw [assessed_invalidated hstrust, assessed_invalidated httrust]
    refine iff_of_true rfl ⟨hstrust.trans httrust.symm, fun htrusted => ?_⟩
    rw [hstrust] at htrusted
    cases htrusted

/-! ## The last assessment of a defect -/

/-- The last sighting of a defect that is assessed. -/
def lastAssessed (key : DefectKey) (found : List Sighting) : Option Sighting :=
  ((ofKey key found).filter isAssessed).getLast?

theorem lastAssessed_mem {key : DefectKey} {found : List Sighting} {last : Sighting}
    (h : lastAssessed key found = some last) :
    last ∈ found ∧ last.key = key ∧ isAssessed last = true := by
  obtain ⟨hmem, hassessed⟩ := List.mem_filter.mp (List.mem_of_getLast? h)
  obtain ⟨hfound, hkey⟩ := mem_ofKey.mp hmem
  exact ⟨hfound, hkey, hassessed⟩

theorem lastAssessed_eq_none {key : DefectKey} {found : List Sighting} :
    lastAssessed key found = none ↔ ∀ s ∈ found, s.key = key → isAssessed s = false := by
  rw [lastAssessed, List.getLast?_eq_none_iff, List.filter_eq_nil_iff]
  simp only [mem_ofKey, and_imp, Bool.not_eq_true]

theorem getLast?_assessments {context : AnalysisContext} {key : DefectKey} {found : List Sighting}
    (hok : ∀ s ∈ found, ∃ a, assess context s = .ok a) :
    (assessments context key found).getLast? =
      (lastAssessed key found).bind (assessed context) := by
  refine getLast?_filterMap_of_isSome fun s hs => ?_
  exact assessed_isSome (hok s (mem_ofKey.mp hs).1)

end TraceQ.Projections
