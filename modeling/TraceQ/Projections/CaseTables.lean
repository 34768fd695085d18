import TraceQ.Projections.Rebuild

/-! # Invariant of the case tables

What always holds between the occurrences, their nonconformances and the analysis versions: at most
one open occurrence per defect, one nonconformance per occurrence, versions numbered in order of
insertion with the last one current. The three writes of the linking loop keep it, and so does
every update of rows that leaves their identity alone and reopens nothing.
-/
namespace TraceQ.Projections
open Quality Tables
set_option autoImplicit false
set_option maxHeartbeats 250000

/-- Both rows are open occurrences of one defect of one item. -/
def SameOpenDefect (a b : DefectOccurrence) : Prop :=
  a.status = .opened ∧ b.status = .opened ∧ a.itemId = b.itemId ∧ a.key = b.key

structure WellFormed (db : Database) : Prop where
  occurrence_ids : (db.defectOccurrences.map (·.id)).Nodup
  occurrence_fresh : ∀ o ∈ db.defectOccurrences, o.id < db.nextId
  open_unique : ∀ a ∈ db.defectOccurrences, ∀ b ∈ db.defectOccurrences, SameOpenDefect a b → a = b
  ncr_ids : (db.nonconformances.map (·.id)).Nodup
  ncr_fresh : ∀ n ∈ db.nonconformances, n.id < db.nextId
  ncr_occurrences : (db.nonconformances.map (·.occurrenceId)).Nodup
  ncr_of_occurrence : ∀ o ∈ db.defectOccurrences, ∃ n ∈ db.nonconformances, n.occurrenceId = o.id
  occurrence_of_ncr : ∀ n ∈ db.nonconformances, ∃ o ∈ db.defectOccurrences,
    o.id = n.occurrenceId ∧ o.itemId = n.itemId ∧ o.key = n.key
  version_fresh : ∀ v ∈ db.analysisVersions, v.nonconformanceId < db.nextId
  versions_numbered : ∀ ncrId, (versionsOf db ncrId).map (·.version) =
    List.range' 1 (versionsOf db ncrId).length
  current_version : ∀ n ∈ db.nonconformances,
    n.currentAnalysisVersion = max 1 (versionsOf db n.id).length
  invalidated_open : ∀ v ∈ db.analysisVersions, v.status = .evidenceInvalidated →
    v.leftBoundaryAt = none ∧ v.rightBoundaryAt = none

theorem wellFormed_initial (config : Configuration) (order : InsertOrder) :
    WellFormed { config := config, insertOrder := order } := by
  constructor <;> simp [versionsOf]

/-! ## Lookups -/

theorem findOpenOccurrence_iff {db : Database} (h : WellFormed db) {itemId : String}
    {key : DefectKey} {o : DefectOccurrence} :
    findOpenOccurrence db itemId key = some o ↔
      o ∈ db.defectOccurrences ∧ o.itemId = itemId ∧ o.key = key ∧ o.status = .opened := by
  rw [findOpenOccurrence, find?_eq_some_iff]
  · simp
  · intro a ha b hb hpa hpb
    simp only [decide_eq_true_eq] at hpa hpb
    obtain ⟨hai, hak, has⟩ := hpa
    obtain ⟨hbi, hbk, hbs⟩ := hpb
    exact h.open_unique a ha b hb ⟨has, hbs, hai.trans hbi.symm, hak.trans hbk.symm⟩

theorem findOpenOccurrence_none {db : Database} {itemId : String} {key : DefectKey} :
    findOpenOccurrence db itemId key = none ↔
      ∀ o ∈ db.defectOccurrences, ¬ (o.itemId = itemId ∧ o.key = key ∧ o.status = .opened) := by
  simp [findOpenOccurrence, List.find?_eq_none]

theorem findNcr_iff {db : Database} (h : WellFormed db) {occurrenceId : Uuid}
    {n : Nonconformance} :
    findNcr db occurrenceId = some n ↔ n ∈ db.nonconformances ∧ n.occurrenceId = occurrenceId :=
  find?_key_eq_some_iff h.ncr_occurrences

/-- The nonconformance of an occurrence. -/
theorem findNcr_of_occurrence {db : Database} (h : WellFormed db) {o : DefectOccurrence}
    (ho : o ∈ db.defectOccurrences) : ∃ n, findNcr db o.id = some n := by
  obtain ⟨n, hn, hno⟩ := h.ncr_of_occurrence o ho
  exact ⟨n, (findNcr_iff h).mpr ⟨hn, hno⟩⟩

/-! ## Versions -/

theorem mem_versionsOf {db : Database} {ncrId : Uuid} {v : AnalysisVersion} :
    v ∈ versionsOf db ncrId ↔ v ∈ db.analysisVersions ∧ v.nonconformanceId = ncrId := by
  simp [versionsOf]

/-- The newest of numbered versions is the one inserted last. -/
theorem latestAnalysis_of_numbered {db : Database} {ncrId : Uuid}
    (h : (versionsOf db ncrId).map (·.version) = List.range' 1 (versionsOf db ncrId).length) :
    latestAnalysis db ncrId = (versionsOf db ncrId).getLast? := by
  refine latestBy_eq_getLast? ?_
  rw [h]
  exact List.pairwise_lt_range'

/-- The number of the last version counts the versions. -/
theorem last_version_number {db : Database} {ncrId : Uuid}
    (h : (versionsOf db ncrId).map (·.version) = List.range' 1 (versionsOf db ncrId).length)
    {v : AnalysisVersion} (hlast : (versionsOf db ncrId).getLast? = some v) :
    v.version = (versionsOf db ncrId).length := by
  have hnumber : (List.range' 1 (versionsOf db ncrId).length).getLast? = some v.version := by
    rw [← h, List.getLast?_map, hlast, Option.map_some]
  rw [List.getLast?_range'] at hnumber
  split at hnumber
  · cases hnumber
  · have hpos : (versionsOf db ncrId).length ≠ 0 := by assumption
    have hv := Option.some.inj hnumber
    omega

theorem next_number {db : Database} {ncrId : Uuid}
    (h : (versionsOf db ncrId).map (·.version) = List.range' 1 (versionsOf db ncrId).length) :
    ((latestAnalysis db ncrId).map (·.version + 1)).getD 1 = (versionsOf db ncrId).length + 1 := by
  rw [latestAnalysis_of_numbered h]
  cases hlast : (versionsOf db ncrId).getLast? with
  | none =>
    rw [List.getLast?_eq_none_iff] at hlast
    rw [hlast]
    rfl
  | some v => rw [Option.map_some, Option.getD_some, last_version_number h hlast]

/-- The version the nonconformance points at. -/
def currentAnalysis (db : Database) (n : Nonconformance) : Option AnalysisVersion :=
  (versionsOf db n.id).find? fun v => decide (v.version = n.currentAnalysisVersion)

/-- The current version is the newest one. -/
theorem currentAnalysis_eq {db : Database} (h : WellFormed db) {n : Nonconformance}
    (hn : n ∈ db.nonconformances) : currentAnalysis db n = (versionsOf db n.id).getLast? := by
  have hnodup : ((versionsOf db n.id).map (·.version)).Nodup := by
    rw [h.versions_numbered n.id]; exact List.nodup_range'
  cases hlast : (versionsOf db n.id).getLast? with
  | none => rw [currentAnalysis, List.getLast?_eq_none_iff.mp hlast]; rfl
  | some v =>
    have hmem : v ∈ versionsOf db n.id := List.mem_of_getLast? hlast
    have hpos : 0 < (versionsOf db n.id).length := List.length_pos_of_mem hmem
    rw [currentAnalysis, find?_key_eq_some_iff hnodup]
    refine ⟨hmem, ?_⟩
    rw [last_version_number (h.versions_numbered n.id) hlast, h.current_version n hn]
    omega

/-! ## Updates of rows -/

/-- A table write that keeps what identifies a row and reopens no occurrence. -/
theorem wellFormed_of_rows {db db' : Database} (h : WellFormed db)
    {f : DefectOccurrence → DefectOccurrence} {g : Nonconformance → Nonconformance}
    (hocc : db'.defectOccurrences = db.defectOccurrences.map f)
    (hncr : db'.nonconformances = db.nonconformances.map g)
    (hversions : db'.analysisVersions = db.analysisVersions) (hnext : db.nextId ≤ db'.nextId)
    (hf : ∀ o ∈ db.defectOccurrences, (f o).id = o.id ∧ (f o).itemId = o.itemId ∧
      (f o).key = o.key ∧ ((f o).status = .opened → o.status = .opened))
    (hg : ∀ n ∈ db.nonconformances, (g n).id = n.id ∧ (g n).occurrenceId = n.occurrenceId ∧
      (g n).itemId = n.itemId ∧ (g n).key = n.key ∧
      (g n).currentAnalysisVersion = n.currentAnalysisVersion) :
    WellFormed db' := by
  have hof : ∀ ncrId, versionsOf db' ncrId = versionsOf db ncrId := fun ncrId => by
    rw [versionsOf, versionsOf, hversions]
  have hids : db'.defectOccurrences.map (·.id) = db.defectOccurrences.map (·.id) := by
    rw [hocc, List.map_map]
    exact List.map_congr_left fun o ho => (hf o ho).1
  have hnids : db'.nonconformances.map (·.id) = db.nonconformances.map (·.id) := by
    rw [hncr, List.map_map]
    exact List.map_congr_left fun n hn => (hg n hn).1
  have hnocc : db'.nonconformances.map (·.occurrenceId) =
      db.nonconformances.map (·.occurrenceId) := by
    rw [hncr, List.map_map]
    exact List.map_congr_left fun n hn => (hg n hn).2.1
  refine
    { occurrence_ids := hids ▸ h.occurrence_ids
      occurrence_fresh := ?_
      open_unique := ?_
      ncr_ids := hnids ▸ h.ncr_ids
      ncr_fresh := ?_
      ncr_occurrences := hnocc ▸ h.ncr_occurrences
      ncr_of_occurrence := ?_
      occurrence_of_ncr := ?_
      version_fresh := ?_
      versions_numbered := fun ncrId => by rw [hof]; exact h.versions_numbered ncrId
      current_version := ?_
      invalidated_open := hversions ▸ h.invalidated_open }
  · intro o ho
    rw [hocc] at ho
    obtain ⟨old, hold, rfl⟩ := List.mem_map.mp ho
    rw [(hf old hold).1]
    exact (h.occurrence_fresh old hold).trans_le hnext
  · intro a ha b hb hsame
    rw [hocc] at ha hb
    obtain ⟨a₀, ha₀, rfl⟩ := List.mem_map.mp ha
    obtain ⟨b₀, hb₀, rfl⟩ := List.mem_map.mp hb
    obtain ⟨-, hai, hak, has⟩ := hf a₀ ha₀
    obtain ⟨-, hbi, hbk, hbs⟩ := hf b₀ hb₀
    obtain ⟨hopa, hopb, hitem, hkey⟩ := hsame
    rw [hai, hbi] at hitem
    rw [hak, hbk] at hkey
    rw [h.open_unique a₀ ha₀ b₀ hb₀ ⟨has hopa, hbs hopb, hitem, hkey⟩]
  · intro n hn
    rw [hncr] at hn
    obtain ⟨old, hold, rfl⟩ := List.mem_map.mp hn
    rw [(hg old hold).1]
    exact (h.ncr_fresh old hold).trans_le hnext
  · intro o ho
    rw [hocc] at ho
    obtain ⟨old, hold, rfl⟩ := List.mem_map.mp ho
    obtain ⟨n, hn, hno⟩ := h.ncr_of_occurrence old hold
    refine ⟨g n, hncr ▸ List.mem_map_of_mem hn, ?_⟩
    rw [(hg n hn).2.1, (hf old hold).1, hno]
  · intro n hn
    rw [hncr] at hn
    obtain ⟨old, hold, rfl⟩ := List.mem_map.mp hn
    obtain ⟨o, ho, hoid, hoitem, hokey⟩ := h.occurrence_of_ncr old hold
    obtain ⟨-, hgo, hgi, hgk, -⟩ := hg old hold
    obtain ⟨hfid, hfi, hfk, -⟩ := hf o ho
    refine ⟨f o, hocc ▸ List.mem_map_of_mem ho, ?_, ?_, ?_⟩
    · rw [hfid, hoid, hgo]
    · rw [hfi, hoitem, hgi]
    · rw [hfk, hokey, hgk]
  · intro v hv
    rw [hversions] at hv
    exact (h.version_fresh v hv).trans_le hnext
  · intro n hn
    rw [hncr] at hn
    obtain ⟨old, hold, rfl⟩ := List.mem_map.mp hn
    obtain ⟨hgid, -, -, -, hgc⟩ := hg old hold
    rw [hgc, hgid, hof]
    exact h.current_version old hold

/-- Writes outside the case tables. -/
theorem wellFormed_congr {db db' : Database} (h : WellFormed db)
    (hocc : db'.defectOccurrences = db.defectOccurrences)
    (hncr : db'.nonconformances = db.nonconformances)
    (hversions : db'.analysisVersions = db.analysisVersions) (hnext : db.nextId ≤ db'.nextId) :
    WellFormed db' :=
  wellFormed_of_rows (f := id) (g := id) h (by rw [hocc, List.map_id]) (by rw [hncr, List.map_id])
    hversions hnext (fun _ _ => ⟨rfl, rfl, rfl, id⟩) (fun _ _ => ⟨rfl, rfl, rfl, rfl, rfl⟩)

/-! ## The writes of the linking loop -/

/-- Point an occurrence at its newest observation. -/
def touchOccurrence (db : Database) (occurrenceId : Uuid) (observationId : ObservationId) :
    Database :=
  { db with
    defectOccurrences := modifyWhere (fun row => decide (row.id = occurrenceId))
      (fun row => { row with currentObservationId := observationId }) db.defectOccurrences }

theorem wellFormed_touchOccurrence {db : Database} (h : WellFormed db) (occurrenceId : Uuid)
    (observationId : ObservationId) : WellFormed (touchOccurrence db occurrenceId observationId) := by
  refine wellFormed_of_rows (g := id) h rfl (List.map_id _).symm rfl le_rfl ?_
    (fun _ _ => ⟨rfl, rfl, rfl, rfl, rfl⟩)
  intro o _
  split
  · exact ⟨rfl, rfl, rfl, id⟩
  · exact ⟨rfl, rfl, rfl, id⟩

/-- A new occurrence with its nonconformance. -/
def openCase (db : Database) (itemId : String) (sighting : Sighting) : Database :=
  { db with
    defectOccurrences := db.defectOccurrences ++ [newOccurrence db.nextId itemId sighting]
    nonconformances := db.nonconformances ++ [newNcr (db.nextId + 1) db.nextId itemId sighting]
    nextId := db.nextId + 2 }

theorem versionsOf_openCase (db : Database) (itemId : String) (sighting : Sighting) (ncrId : Uuid) :
    versionsOf (openCase db itemId sighting) ncrId = versionsOf db ncrId := rfl

/-- No version belongs to a nonconformance that is yet to be created. -/
theorem versionsOf_fresh {db : Database} (h : WellFormed db) {ncrId : Uuid}
    (hfresh : db.nextId ≤ ncrId) : versionsOf db ncrId = [] := by
  rw [versionsOf, List.filter_eq_nil_iff]
  intro v hv hid
  have hlt : v.nonconformanceId < db.nextId := h.version_fresh v hv
  rw [decide_eq_true_eq] at hid
  rw [hid] at hlt
  exact absurd hlt hfresh.not_gt

theorem wellFormed_openCase {db : Database} (h : WellFormed db) {itemId : String}
    {sighting : Sighting} (hnone : findOpenOccurrence db itemId sighting.key = none) :
    WellFormed (openCase db itemId sighting) := by
  rw [findOpenOccurrence_none] at hnone
  have hmemOcc : ∀ {o}, o ∈ (openCase db itemId sighting).defectOccurrences →
      o ∈ db.defectOccurrences ∨ o = newOccurrence db.nextId itemId sighting := by
    intro o ho
    simpa [openCase] using ho
  have hmemNcr : ∀ {n}, n ∈ (openCase db itemId sighting).nonconformances →
      n ∈ db.nonconformances ∨ n = newNcr (db.nextId + 1) db.nextId itemId sighting := by
    intro n hn
    simpa [openCase] using hn
  refine
    { occurrence_ids := nodup_map_append h.occurrence_ids fun o ho =>
        (h.occurrence_fresh o ho).ne
      occurrence_fresh := ?_
      open_unique := ?_
      ncr_ids := nodup_map_append h.ncr_ids fun n hn =>
        ((h.ncr_fresh n hn).trans (Nat.lt_succ_self _)).ne
      ncr_fresh := ?_
      ncr_occurrences := nodup_map_append h.ncr_occurrences fun n hn => ?_
      ncr_of_occurrence := ?_
      occurrence_of_ncr := ?_
      version_fresh := fun v hv => (h.version_fresh v hv).trans (by simp [openCase])
      versions_numbered := h.versions_numbered
      current_version := ?_
      invalidated_open := h.invalidated_open }
  · intro o ho
    rcases hmemOcc ho with hold | rfl
    · exact (h.occurrence_fresh o hold).trans (by simp [openCase])
    · simp [openCase, newOccurrence]
  · intro a ha b hb hsame
    obtain ⟨hopa, hopb, hitem, hkey⟩ := hsame
    rcases hmemOcc ha with ha | rfl <;> rcases hmemOcc hb with hb | rfl
    · exact h.open_unique a ha b hb ⟨hopa, hopb, hitem, hkey⟩
    · exact absurd ⟨hitem, hkey, hopa⟩ (hnone a ha)
    · exact absurd ⟨hitem.symm, hkey.symm, hopb⟩ (hnone b hb)
    · rfl
  · intro n hn
    rcases hmemNcr hn with hold | rfl
    · exact (h.ncr_fresh n hold).trans (by simp [openCase])
    · simp [openCase, newNcr]
  · obtain ⟨o, ho, hoid, -⟩ := h.occurrence_of_ncr n hn
    rw [← hoid]
    exact (h.occurrence_fresh o ho).ne
  · intro o ho
    rcases hmemOcc ho with hold | rfl
    · obtain ⟨n, hn, hno⟩ := h.ncr_of_occurrence o hold
      exact ⟨n, List.mem_append_left _ hn, hno⟩
    · exact ⟨_, List.mem_append_right _ (List.mem_singleton_self _), rfl⟩
  · intro n hn
    rcases hmemNcr hn with hold | rfl
    · obtain ⟨o, ho, hrest⟩ := h.occurrence_of_ncr n hold
      exact ⟨o, List.mem_append_left _ ho, hrest⟩
    · exact ⟨_, List.mem_append_right _ (List.mem_singleton_self _), rfl, rfl, rfl⟩
  · intro n hn
    rw [versionsOf_openCase]
    rcases hmemNcr hn with hold | rfl
    · exact h.current_version n hold
    · have hnone : versionsOf db (db.nextId + 1) = [] := versionsOf_fresh h (Nat.le_succ _)
      simp [newNcr, hnone]

/-! ## Appending a version -/

section AppendVersion
variable {db : Database} {n : Nonconformance} {result : Assessment} {reason : AnalysisReason}
  {evidence : List EvidenceValue}

theorem versionsOf_appendVersion_self :
    versionsOf (appendVersion db n result reason evidence) n.id =
      versionsOf db n.id ++ [newVersion db n result reason] := by
  simp [versionsOf, appendVersion, newVersion, List.filter_append]

theorem versionsOf_appendVersion_other {ncrId : Uuid} (h : ncrId ≠ n.id) :
    versionsOf (appendVersion db n result reason evidence) ncrId = versionsOf db ncrId := by
  simp [versionsOf, appendVersion, newVersion, List.filter_append, h.symm]

theorem wellFormed_appendVersion (h : WellFormed db) (hn : n ∈ db.nonconformances)
    (hwindow : result.status = .evidenceInvalidated →
      result.leftBoundaryAt = none ∧ result.rightBoundaryAt = none) :
    WellFormed (appendVersion db n result reason evidence) := by
  have hnumber : (newVersion db n result reason).version = (versionsOf db n.id).length + 1 :=
    next_number (h.versions_numbered n.id)
  have hids : (appendVersion db n result reason evidence).nonconformances.map (·.id) =
      db.nonconformances.map (·.id) := by
    refine map_modifyWhere ?_ db.nonconformances
    exact fun _ => rfl
  have hocc : (appendVersion db n result reason evidence).nonconformances.map (·.occurrenceId) =
      db.nonconformances.map (·.occurrenceId) := by
    refine map_modifyWhere ?_ db.nonconformances
    exact fun _ => rfl
  have hmem : ∀ {m}, m ∈ (appendVersion db n result reason evidence).nonconformances →
      ∃ old ∈ db.nonconformances, m.id = old.id ∧ m.occurrenceId = old.occurrenceId ∧
        m.itemId = old.itemId ∧ m.key = old.key ∧
        m.currentAnalysisVersion = if old.id = n.id then (versionsOf db n.id).length + 1
          else old.currentAnalysisVersion := by
    intro m hm
    obtain ⟨old, hold, rfl⟩ := mem_modifyWhere.mp hm
    refine ⟨old, hold, ?_⟩
    by_cases hid : old.id = n.id
    · simp [hid, hnumber, Nonconformance.key]
    · simp [hid]
  have hlt : db.nextId ≤ (appendVersion db n result reason evidence).nextId := Nat.le_succ _
  refine
    { occurrence_ids := h.occurrence_ids
      occurrence_fresh := fun o ho => (h.occurrence_fresh o ho).trans_le hlt
      open_unique := h.open_unique
      ncr_ids := hids ▸ h.ncr_ids
      ncr_fresh := ?_
      ncr_occurrences := hocc ▸ h.ncr_occurrences
      ncr_of_occurrence := ?_
      occurrence_of_ncr := ?_
      version_fresh := ?_
      versions_numbered := ?_
      current_version := ?_
      invalidated_open := ?_ }
  · intro m hm
    obtain ⟨old, hold, hid, -⟩ := hmem hm
    rw [hid]
    exact (h.ncr_fresh old hold).trans_le hlt
  · intro o ho
    obtain ⟨m, hm, hmo⟩ := h.ncr_of_occurrence o ho
    have hmap : o.id ∈ (appendVersion db n result reason evidence).nonconformances.map
        (·.occurrenceId) := by
      rw [hocc, ← hmo]
      exact List.mem_map_of_mem hm
    obtain ⟨m', hm', hid⟩ := List.mem_map.mp hmap
    exact ⟨m', hm', hid⟩
  · intro m hm
    obtain ⟨old, hold, -, ho, hi, hk, -⟩ := hmem hm
    rw [ho, hi, hk]
    exact h.occurrence_of_ncr old hold
  · intro v hv
    rcases List.mem_append.mp hv with hold | hnew
    · exact (h.version_fresh v hold).trans_le hlt
    · rw [List.mem_singleton.mp hnew]
      exact (h.ncr_fresh n hn).trans_le hlt
  · intro ncrId
    by_cases hid : ncrId = n.id
    · rw [hid, versionsOf_appendVersion_self, List.map_append, h.versions_numbered,
        List.length_append, List.length_singleton, List.range'_concat]
      simp [hnumber, Nat.add_comm]
    · rw [versionsOf_appendVersion_other hid]
      exact h.versions_numbered ncrId
  · intro m hm
    obtain ⟨old, hold, hid, -, -, -, hc⟩ := hmem hm
    rw [hc, hid]
    by_cases hold' : old.id = n.id
    · rw [if_pos hold', hold', versionsOf_appendVersion_self, List.length_append]
      simp
    · rw [if_neg hold', versionsOf_appendVersion_other hold']
      exact h.current_version old hold
  · intro v hv
    rcases List.mem_append.mp hv with hold | hnew
    · exact h.invalidated_open v hold
    · rw [List.mem_singleton.mp hnew]
      exact hwindow

end AppendVersion

end TraceQ.Projections
