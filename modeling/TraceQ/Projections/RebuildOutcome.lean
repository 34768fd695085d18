import TraceQ.Projections.RebuildMeaning

/-! # When a rebuild succeeds

A rebuild raises for these reasons only: the reference of a run is no UUID, a row does not find the one it
refers to, cannot be stored or has a key that another item has used, or the scope of a trusted GOOD before a
trusted defect cannot be searched.
-/
namespace TraceQ.Projections
open Quality Tables Results
set_option autoImplicit false
set_option maxHeartbeats 250000

/-! ## References -/

/-- The reference of every run is empty or a UUID. -/
def ReferencesParse (runs : List OperationValue) : Prop :=
  ∀ run ∈ runs, ∃ reference, reworkReference run.reworkForNonconformanceId = .ok reference

theorem operationRunRows_succeeds_iff {itemId : String} {runs : List OperationValue} :
    (∃ rows, operationRunRows itemId runs = .ok rows) ↔ ReferencesParse runs := by
  induction runs with
  | nil => exact iff_of_true ⟨[], rfl⟩ fun run hrun => absurd hrun List.not_mem_nil
  | cons run rest ih =>
    constructor
    · rintro ⟨rows, h⟩
      rw [operationRunRows] at h
      obtain ⟨row, hrow, h⟩ := bind_ok.mp h
      obtain ⟨others, hothers, -⟩ := bind_ok.mp h
      obtain ⟨reference, hreference, -⟩ := bind_ok.mp hrow
      intro other hother
      rcases List.mem_cons.mp hother with rfl | hmem
      · exact ⟨reference, hreference⟩
      · exact ih.mp ⟨others, hothers⟩ other hmem
    · intro h
      obtain ⟨reference, hreference⟩ := h run List.mem_cons_self
      obtain ⟨rows, hrows⟩ := ih.mpr fun other hother => h other (List.mem_cons_of_mem _ hother)
      have hrow : ∃ row, operationRunRow itemId run = .ok row := ⟨_, bind_ok.mpr ⟨reference, hreference, rfl⟩⟩
      obtain ⟨row, hrow⟩ := hrow
      exact ⟨row :: rows, by rw [operationRunRows]; exact bind_ok.mpr ⟨row, hrow, bind_ok.mpr ⟨rows, hrows, rfl⟩⟩⟩

/-! ## Linking -/

/-- No trusted sighting meets a scope that cannot be searched. -/
def ScopesSearchable (observations : List ObservationValue) : Prop :=
  ∀ s ∈ sightings observations, s.observation.trustStatus = .trusted →
    ∃ found, candidates s.key s.occurredAt observations = .ok found

theorem assess_succeeds_iff {context : AnalysisContext} {s : Sighting} :
    (∃ a, assess context s = .ok a) ↔ (s.observation.trustStatus = .trusted →
      ∃ found, candidates s.key s.occurredAt context.observations = .ok found) := by
  cases htrust : s.observation.trustStatus with
  | trusted =>
    simp only [assess, htrust, calculateBirthWindow, forall_const]
    cases candidates s.key s.occurredAt context.observations with
    | error e => exact iff_of_false (by rintro ⟨a, h⟩; cases h) (by rintro ⟨found, h⟩; cases h)
    | ok found => exact iff_of_true ⟨_, rfl⟩ ⟨found, rfl⟩
  | invalidated | untrusted | unassessable | conflicted => simp [assess, htrust]

/-! ## The rebuild -/

theorem storable_nil (db : Database) (itemId : String) : Storable db itemId {} [] := by
  refine ⟨referencesPresent_iff.mpr fun _ => rfl, rfl, ⟨?_, ?_⟩, ⟨?_, ?_⟩, ⟨?_, ?_⟩, ⟨?_, ?_⟩⟩ <;> simp

/-- A rebuild succeeds exactly when its rows can be stored and its sightings can be analysed. -/
theorem rebuildItem_succeeds_iff {db : Database} {itemId : String} :
    (∃ db', rebuildItem db itemId = .ok db') ↔
      (∃ runs, operationRunRows itemId (replay db itemId).operations = .ok runs ∧
        Storable db itemId (replay db itemId) runs) ∧
      ScopesSearchable (replay db itemId).observations := by
  cases hraws : history db itemId with
  | nil =>
    have hvalues : replay db itemId = {} := by
      rw [replay, hraws]
      rfl
    rw [hvalues]
    refine iff_of_true ⟨updateState db itemId fun state => { state with status := .upToDate }, ?_⟩
      ⟨⟨[], rfl, storable_nil db itemId⟩, fun s hs => absurd hs List.not_mem_nil⟩
    rw [rebuildItem, hraws]
  | cons raw rest =>
    have hcontext : ∀ registered, (analysisContext registered itemId (replay db itemId)).observations =
        (replay db itemId).observations := fun _ => rfl
    rw [rebuildItem, hraws, ← storeProjection_succeeds_iff]
    constructor
    · rintro ⟨db', h⟩
      obtain ⟨stored, hstored, h⟩ := bind_ok.mp h
      obtain ⟨linked, hlinked, -⟩ := bind_ok.mp h
      refine ⟨⟨stored, hstored⟩, fun s hs htrust => ?_⟩
      have hassess := assess_succeeds_iff.mp (linkSightings_assess_ok hlinked s hs) htrust
      rwa [hcontext] at hassess
    · rintro ⟨⟨stored, hstored⟩, hscopes⟩
      have htotal : ∃ linked, linkSightings itemId
          (analysisContext (projectItem stored itemId (replay db itemId).item) itemId (replay db itemId))
          (projectItem stored itemId (replay db itemId).item) (sightings (replay db itemId).observations) =
            .ok linked :=
        linkSightings_total _ fun s hs => assess_succeeds_iff.mpr fun htrust => hscopes s hs htrust
      obtain ⟨linked, hlinked⟩ := htotal
      exact ⟨_, bind_ok.mpr ⟨stored, hstored, bind_ok.mpr ⟨linked, hlinked, rfl⟩⟩⟩

end TraceQ.Projections
