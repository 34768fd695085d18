import TraceQ.Backend.InsertOrders

/-! # Replay after closing

A replay reads the whole history of an item, the observations of closed cases included, and links
them to open occurrences only. So once every case of an item is closed, a rebuild that completes opens a
new case for every defect its history has ever reported. In the order the INSERTs have, no rebuild of such a
history completes, and no case is ever opened.
-/
namespace TraceQ.Properties
open Projections Ingestion Api Quality Tables Results Backend
set_option autoImplicit false
set_option maxHeartbeats 250000

/-! ## Every occurrence was reported -/

/-- Some stored event of the item lists a defect. -/
def ReportsDefect (db : Database) (itemId : String) : Prop :=
  ∃ raw ∈ storedEvents db itemId, raw.payload.defects ≠ []

/-- Every occurrence belongs to an item whose history reports a defect. -/
def Reported (db : Database) : Prop :=
  ∀ o ∈ db.defectOccurrences, ReportsDefect db o.itemId

theorem reportsDefect_mono {db db' : Database} (h : db.rawEvents <+: db'.rawEvents)
    {itemId : String} (hreport : ReportsDefect db itemId) : ReportsDefect db' itemId := by
  obtain ⟨raw, hraw, hdefects⟩ := hreport
  exact ⟨raw, (h.sublist.filter _).subset hraw, hdefects⟩

theorem reportsDefect_of_sighting {db : Database} {itemId : String} {sighting : Sighting}
    (h : sighting ∈ itemSightings db itemId) : ReportsDefect db itemId := by
  by_contra hnone
  have hnil : itemSightings db itemId = [] := itemSightings_eq_nil_iff.mpr fun raw hraw => by
    by_contra hdefects
    exact hnone ⟨raw, hraw, hdefects⟩
  rw [hnil] at h
  cases h

/-- Rows whose items are items of old rows keep the invariant. -/
theorem reported_of_items {db db' : Database} (h : Reported db)
    (hextends : db.rawEvents <+: db'.rawEvents)
    (hitems : ∀ o' ∈ db'.defectOccurrences, ∃ o ∈ db.defectOccurrences, o'.itemId = o.itemId) :
    Reported db' := by
  intro o' ho'
  obtain ⟨o, ho, hitem⟩ := hitems o' ho'
  exact hitem ▸ reportsDefect_mono hextends (h o ho)

theorem rebuildItem_reported {db db' : Database} (hwf : WellFormed db) (h : Reported db)
    {itemId : String} (hrebuild : rebuildItem db itemId = .ok db') : Reported db' := by
  have hraws : db.rawEvents <+: db'.rawEvents :=
    (rebuildItem_rawEvents hwf hrebuild) ▸ List.prefix_rfl
  have hwf' := rebuildItem_wellFormed hwf hrebuild
  obtain ⟨fresh, hrows, hfresh⟩ := (rebuildItem_grows hwf hrebuild).occurrences
  intro o ho
  have hmem : fixedOccurrence o ∈ db.defectOccurrences.map fixedOccurrence ++ fresh :=
    hrows ▸ List.mem_map_of_mem ho
  rcases List.mem_append.mp hmem with hold | hnew
  · obtain ⟨old, hold, hfixed⟩ := List.mem_map.mp hold
    have hitem : old.itemId = o.itemId := (congrArg DefectOccurrence.itemId hfixed :)
    exact hitem ▸ reportsDefect_mono hraws (h old hold)
  · -- a new occurrence is open, so its file was open before or some sighting opened it
    have hopen : (caseFiles db' (o.itemId, o.key)).isSome = true :=
      (caseFiles_isSome hwf').mpr ⟨o, ho, rfl, rfl, (hfresh _ hnew).1⟩
    have hbefore : (caseFiles db (o.itemId, o.key)).isSome = true → ReportsDefect db' o.itemId := by
      intro hsome
      obtain ⟨old, hold, hitem, -⟩ := (caseFiles_isSome hwf).mp hsome
      have hold' := reportsDefect_mono hraws (h old hold)
      rw [hitem] at hold'
      exact hold'
    by_cases hitem : o.itemId = itemId
    · have hopening := rebuildItem_opening hwf hrebuild o.key
      rw [hitem] at hopen hbefore ⊢
      cases hhead : (ofKey o.key (itemSightings db itemId)).head? with
      | none =>
        rw [hhead, Option.map_none, Option.or_none] at hopening
        refine hbefore ?_
        rw [← Option.isSome_map, ← hopening, Option.isSome_map]
        exact hopen
      | some sighting =>
        have hsighting : sighting ∈ itemSightings db itemId :=
          (mem_ofKey.mp (List.mem_of_head? hhead)).1
        exact reportsDefect_mono hraws (reportsDefect_of_sighting hsighting)
    · obtain ⟨registered, linked, hsame, hlinked, hsame'⟩ := rebuildItem_links_after hwf hrebuild
      refine hbefore ?_
      rw [hsame'.caseFiles, caseFile_after_other (hsame.wellFormed hwf) hlinked hitem,
        hsame.caseFiles] at hopen
      exact hopen

theorem effect_reported {db db' : Database} {call : Call} {response : Response} (hs : Sound db)
    (h : Reported db) (heffect : Effect db call response db') : Reported db' := by
  have hextends := effect_rawEvents hs heffect
  cases heffect with
  | quiet hquiet =>
    exact reported_of_items h hextends fun o ho => ⟨o, hquiet.occurrences ▸ ho, rfl⟩
  | rebuilds hrebuilds =>
    refine (hrebuilds.invariant (P := fun m => WellFormed m ∧ Reported m) ?_ ?_).2
    · intro m hquiet _
      exact ⟨hquiet.toSameCases.wellFormed hs.toWellFormed,
        reported_of_items h hquiet.rawEvents fun o ho => ⟨o, hquiet.occurrences ▸ ho, rfl⟩⟩
    · rintro m n itemId ⟨hwf, hm⟩ hn
      exact ⟨rebuildItem_wellFormed hwf hn, rebuildItem_reported hwf hm hn⟩
  | edits ncr ncr' hedit _ _ =>
    exact reported_of_items h hextends fun o ho => ⟨o, hedit.occurrences ▸ ho, rfl⟩
  | releases ncr ncr' decision now hrelease _ =>
    refine reported_of_items h hextends fun o' ho' => ?_
    rw [hrelease.occurrences] at ho'
    obtain ⟨o, ho, rfl⟩ := mem_modifyWhere.mp ho'
    refine ⟨o, ho, ?_⟩
    split <;> rfl

theorem reachable_reported {db : Database} (h : Reachable db) : Reported db := by
  refine (Machine.reachable_invariant (P := fun m => Sound m ∧ Reported m) ?_ ?_ h).2
  · rintro m ⟨config, order, rfl⟩
    exact ⟨sound_initial ⟨config, order, rfl⟩, nofun⟩
  · rintro m call ⟨hs, hm⟩
    exact ⟨exec_sound hs call, effect_reported hs hm (exec_cases hs call)⟩

/-! ## Rebuilds after closing -/

/-- Every occurrence and nonconformance of the item in `db'` is one of `db`. -/
def NoNewCases (db db' : Database) (itemId : String) : Prop :=
  (∀ o ∈ db'.defectOccurrences, o.itemId = itemId → o.id ∈ db.defectOccurrences.map (·.id)) ∧
    ∀ n ∈ db'.nonconformances, n.itemId = itemId → n.id ∈ db.nonconformances.map (·.id)

/-- An item whose history reports no defect has no case. -/
theorem noNewCases_of_no_report {db db' : Database} (hs : WellFormed db') (h : Reported db')
    {itemId : String} (hnone : ¬ ReportsDefect db' itemId) : NoNewCases db db' itemId := by
  constructor
  · intro o ho hitem
    exact absurd (hitem ▸ h o ho) hnone
  · intro n hn hitem
    obtain ⟨o, ho, -, hoitem, -⟩ := hs.occurrence_of_ncr n hn
    have hreport := h o ho
    rw [hoitem, hitem] at hreport
    exact absurd hreport hnone

/-- Once all cases of an item are closed, whatever happens next, its next rebuild opens no case
exactly when its stored history reports no defect at all. -/
theorem no_new_cases_iff {db : Database} (hdb : Reachable db) {itemId : String}
    (hclosed : ∀ o ∈ db.defectOccurrences, o.itemId = itemId → o.status = .closed)
    (calls : List Call) {db' : Database}
    (hrebuild : rebuildItem (run db calls) itemId = .ok db') :
    NoNewCases db db' itemId ↔
      ∀ raw ∈ storedEvents (run db calls) itemId, raw.payload.defects = [] := by
  have hs := reachable_sound hdb
  have hmid := reachable_sound (reachable_run hdb calls)
  have hwf' := rebuildItem_wellFormed hmid.toWellFormed hrebuild
  have hkeeps : KeepsClosed db db' := (run_keepsClosed hs calls).trans
    (Grows.keepsClosed (rebuildItem_grows hmid.toWellFormed hrebuild))
  rw [← itemSightings_eq_nil_iff]
  constructor
  · rintro ⟨hold, -⟩
    rw [List.eq_nil_iff_forall_not_mem]
    intro sighting hsighting
    obtain ⟨o, ho, hitem, -, hopen⟩ :=
      (caseFiles_isSome hwf').mp (rebuildItem_opens hmid.toWellFormed hrebuild hsighting)
    -- the open case would be one that was closed
    obtain ⟨old, holdmem, hid⟩ := List.mem_map.mp (hold o ho hitem)
    obtain ⟨kept, hkept, hkeptid, hkeptitem, hstays⟩ := hkeeps old holdmem
    obtain rfl : kept = o :=
      eq_of_nodup_map hwf'.occurrence_ids hkept ho (hkeptid.trans hid)
    have hwas := hclosed old holdmem (hkeptitem.symm.trans hitem)
    rw [hstays hwas] at hopen
    cases hopen
  · intro hnil
    have hreported := rebuildItem_reported hmid.toWellFormed
      (reachable_reported (reachable_run hdb calls)) hrebuild
    refine noNewCases_of_no_report hwf' hreported ?_
    rintro ⟨raw, hraw, hdefects⟩
    rw [storedEvents_congr (rebuildItem_rawEvents hmid.toWellFormed hrebuild)] at hraw
    exact hdefects (itemSightings_eq_nil_iff.mp hnil raw hraw)

/-- Whatever the tables hold and whatever is called, no occurrence and no nonconformance is new: a rebuild that
would link a sighting raises before it does. -/
theorem no_new_cases {db : Database} (hs : Sound db) (horder : db.insertOrder = .byClassName)
    (itemId : String) (calls : List Call) : NoNewCases db (run db calls) itemId := by
  have hkept := run_keepsCases hs horder calls
  constructor
  · intro o ho _
    exact hkept.occurrenceIds ▸ List.mem_map_of_mem ho
  · intro n hn _
    exact hkept.ncrIds ▸ List.mem_map_of_mem hn

/-! ### A case that is closed -/

/-- A trusted inspection of `item-1` that reports a scratch. -/
def scratchSeen (eventId : String) (occurredAt : Instant) : EventEnvelope where
  eventId := eventId
  occurredAt := occurredAt
  source := { sourceId := "camera-1", sourceType := "vision" }
  itemId := some "item-1"
  payload := .inspectionResult
    { inspectionResult := .defectDetected
      observationQuality := .good
      controlPointId := "CP-1"
      defects := [{ defectType := "scratch" }] }

/-- An inspection that finds nothing lists nothing. -/
theorem nothing_listed : InspectionResult.noDefect = .defectDetected ↔ ([] : List Defect) ≠ [] := by decide

theorem scratch_listed : InspectionResult.defectDetected = .defectDetected ↔
    [({ defectType := "scratch" } : Defect)] ≠ [] := by decide

/-- A trusted inspection of `item-1` that finds nothing. -/
def goodSeen (eventId : String) (occurredAt : Instant) : EventEnvelope where
  eventId := eventId
  occurredAt := occurredAt
  source := { sourceId := "camera-1", sourceType := "vision" }
  itemId := some "item-1"
  payload := .inspectionResult
    { inspectionResult := .noDefect
      observationQuality := .good
      controlPointId := "CP-1"
      validate_defects := nothing_listed }

theorem confirmed_allowed : Verdict.confirmed = .confirmed ∨ Verdict.confirmed = .rejected := by decide

/-- A confirmed nonconformance may require rework. -/
theorem confirmed_rework : ¬ (Verdict.confirmed = .rejected ∧ Disposition.reworkRequired = .reworkRequired) := by
  decide

def useAsIs : DecisionRequest where
  verdict := .confirmed
  disposition := .useAsIs
  containment := .none
  reason := "cosmetic"

/-- The scratch is detected and accepted as it is. -/
def acceptedScratch : List Call :=
  [.rebuild "item-1", .ingest (scratchSeen "e-1" 10) 11, .rebuild "item-1", .decide 1 useAsIs 100 20]

theorem acceptedScratch_reachable : Reachable (run parentsFirst acceptedScratch) :=
  ⟨_, acceptedScratch, initial_parentsFirst, rfl⟩

/-- The rebuilds after the decision raise, and open nothing. -/
theorem no_new_cases_accepted_scratch : NoNewCases (shipped (run parentsFirst acceptedScratch))
    (run (shipped (run parentsFirst acceptedScratch)) [.rebuild "item-1", .rebuild "item-1"]) "item-1" :=
  no_new_cases (sound_shipped (reachable_sound acceptedScratch_reachable)) rfl "item-1" _

/-- With the observations inserted first, the rebuild after the decision opens the scratch again. -/
example : ¬ NoNewCases (run parentsFirst acceptedScratch)
    (rebuildOrMark (run parentsFirst acceptedScratch) "item-1") "item-1" := by
  have hrebuild : rebuildItem (run (run parentsFirst acceptedScratch) []) "item-1" =
      .ok (rebuildOrMark (run parentsFirst acceptedScratch) "item-1") :=
    rebuildItem_rebuildOrMark (by decide +kernel)
  rw [no_new_cases_iff acceptedScratch_reachable (by decide +kernel) [] hrebuild]
  decide +kernel

end TraceQ.Properties
