import TraceQ.Backend.Frames

/-! # Histories of the analyses

A call keeps every analysis version with its evidence and adds versions behind them. Two versions of a
nonconformance that follow each other differ.
-/
namespace TraceQ.Backend
open Projections Ingestion Api Quality Tables Results ChangeLog
set_option autoImplicit false
set_option maxHeartbeats 250000

/-! ## Appending -/

/-- The versions of `db` stay with their evidence; the versions behind them have new ids. -/
structure Appends (db db' : Database) : Prop where
  versions : ∃ fresh, db'.analysisVersions = db.analysisVersions ++ fresh ∧
    ∀ v ∈ fresh, db.nextId ≤ v.id ∧ v.id < db'.nextId
  evidence : ∃ fresh, db'.analysisEvidence = db.analysisEvidence ++ fresh ∧
    ∀ row ∈ fresh, db.nextId ≤ row.analysisVersionId
  nextId : db.nextId ≤ db'.nextId

theorem appends_of_same {db db' : Database} (versions : db'.analysisVersions = db.analysisVersions)
    (evidence : db'.analysisEvidence = db.analysisEvidence) (nextId : db.nextId ≤ db'.nextId) :
    Appends db db' :=
  ⟨⟨[], by simp [versions]⟩, ⟨[], by simp [evidence]⟩, nextId⟩

theorem Appends.trans {a b c : Database} (hab : Appends a b) (hbc : Appends b c) : Appends a c := by
  obtain ⟨⟨versions, hversions, hids⟩, ⟨evidence, hevidence, hrows⟩, hnext⟩ := hab
  obtain ⟨⟨versions', hversions', hids'⟩, ⟨evidence', hevidence', hrows'⟩, hnext'⟩ := hbc
  refine ⟨⟨versions ++ versions', by rw [hversions', hversions, List.append_assoc], fun v hv => ?_⟩,
    ⟨evidence ++ evidence', by rw [hevidence', hevidence, List.append_assoc], fun row hrow => ?_⟩,
    hnext.trans hnext'⟩
  · rcases List.mem_append.mp hv with hold | hnew
    · exact ⟨(hids v hold).1, (hids v hold).2.trans_le hnext'⟩
    · exact ⟨hnext.trans (hids' v hnew).1, (hids' v hnew).2⟩
  · rcases List.mem_append.mp hrow with hold | hnew
    · exact hrows row hold
    · exact hnext.trans (hrows' row hnew)

theorem Appends.versionsOf {db db' : Database} (h : Appends db db') (ncrId : Uuid) :
    Projections.versionsOf db ncrId <+: Projections.versionsOf db' ncrId := by
  obtain ⟨fresh, heq, -⟩ := h.versions
  rw [Projections.versionsOf, Projections.versionsOf, heq, List.filter_append]
  exact List.prefix_append _ _

/-- The evidence of a version. -/
def evidenceOf (db : Database) (versionId : Uuid) : List AnalysisEvidence :=
  db.analysisEvidence.filter fun row => decide (row.analysisVersionId = versionId)

theorem Appends.evidenceOf {db db' : Database} (h : Appends db db') {versionId : Uuid}
    (hold : versionId < db.nextId) : Backend.evidenceOf db' versionId = Backend.evidenceOf db versionId := by
  obtain ⟨fresh, heq, hrows⟩ := h.evidence
  have hnone : fresh.filter (fun row => decide (row.analysisVersionId = versionId)) = [] := by
    rw [List.filter_eq_nil_iff]
    intro row hrow hid
    rw [decide_eq_true_eq] at hid
    exact absurd hold (hid ▸ hrows row hrow).not_gt
  rw [Backend.evidenceOf, Backend.evidenceOf, heq, List.filter_append, hnone, List.append_nil]

theorem appends_records {db db' : Database} {n : Nonconformance} {a : Option Assessment}
    (h : Records db n a db') : Appends db db' := by
  rcases h with ⟨-, rfl⟩ | ⟨result, reason, evidence, -, -, -, rfl⟩
  · exact appends_of_same rfl rfl le_rfl
  · refine ⟨⟨[newVersion db n result reason], rfl, fun v hv => ?_⟩,
      ⟨evidence.map (evidenceRow db.nextId), rfl, fun row hrow => ?_⟩, Nat.le_succ _⟩
    · rw [List.mem_singleton.mp hv]
      exact ⟨le_rfl, Nat.lt_succ_self _⟩
    · obtain ⟨value, -, rfl⟩ := List.mem_map.mp hrow
      exact le_rfl

/-! ## Changes only -/

/-- Ids of versions are unique and used up, and consecutive versions of a nonconformance differ in their
status or in a boundary. -/
structure History (db : Database) : Prop where
  ids : ∀ v ∈ db.analysisVersions, v.id < db.nextId
  changes : ∀ ncrId, (logOf db ncrId).IsChain (· ≠ ·)
  unique : (db.analysisVersions.map (·.id)).Nodup

theorem History.keeps {db db' : Database} (h : History db)
    (versions : db'.analysisVersions = db.analysisVersions) (nextId : db.nextId ≤ db'.nextId) :
    History db' := by
  refine ⟨fun v hv => (h.ids v (versions ▸ hv)).trans_le nextId, fun ncrId => ?_, versions ▸ h.unique⟩
  have hlog : logOf db' ncrId = logOf db ncrId := by
    rw [logOf, logOf, versionsOf, versionsOf, versions]
  exact hlog ▸ h.changes ncrId

theorem history_records {db db' : Database} {n : Nonconformance} {a : Option Assessment}
    (h : History db) (hrec : Records db n a db') : History db' := by
  refine ⟨fun v hv => ?_, fun ncrId => ?_, ?_⟩
  · obtain ⟨⟨fresh, heq, hids⟩, -, hnext⟩ := appends_records hrec
    rw [heq] at hv
    rcases List.mem_append.mp hv with hold | hnew
    · exact (h.ids v hold).trans_le hnext
    · exact (hids v hnew).2
  · rw [logOf_records hrec ncrId]
    split
    · cases a with
      | none => exact h.changes n.id
      | some result => exact isChain_push (h.changes n.id) result
    · exact h.changes ncrId
  · rcases hrec with ⟨-, rfl⟩ | ⟨result, reason, evidence, -, -, -, rfl⟩
    · exact h.unique
    · exact nodup_map_append h.unique fun v hv => (h.ids v hv).ne

/-! ## One rebuild -/

theorem linkSighting_history {db db' : Database} (hwf : WellFormed db) (h : History db) {itemId : String}
    {context : AnalysisContext} {sighting : Sighting}
    (hok : linkSighting itemId context db sighting = .ok db') : Appends db db' ∧ History db' := by
  rcases linkSighting_cases hwf hok with ⟨o, n, -, -, hrec⟩ | ⟨-, hrec⟩
  · have htouch : Appends db (touchOccurrence db o.id ⟨sighting.observation.eventId⟩) :=
      appends_of_same rfl rfl le_rfl
    have hkept : History (touchOccurrence db o.id ⟨sighting.observation.eventId⟩) := h.keeps rfl le_rfl
    exact ⟨htouch.trans (appends_records hrec), history_records hkept hrec⟩
  · have hnext : db.nextId ≤ (openCase db itemId sighting).nextId := by simp [openCase]
    have hopen : Appends db (openCase db itemId sighting) := appends_of_same rfl rfl hnext
    have hkept : History (openCase db itemId sighting) := h.keeps rfl hnext
    exact ⟨hopen.trans (appends_records hrec), history_records hkept hrec⟩

theorem rebuildItem_history {db db' : Database} (hwf : WellFormed db) (h : History db) {itemId : String}
    (hrebuild : rebuildItem db itemId = .ok db') : Appends db db' ∧ History db' := by
  obtain ⟨registered, linked, hsame, -, hlinked, hsame', -, -⟩ := rebuildItem_links hrebuild
  have hbefore : Appends db registered := appends_of_same hsame.versions hsame.evidence hsame.nextId
  have hafter : Appends linked db' := appends_of_same hsame'.versions hsame'.evidence hsame'.nextId
  have hloop : WellFormed linked ∧ Appends registered linked ∧ History linked := by
    refine foldlM_invariant (P := fun m => WellFormed m ∧ Appends registered m ∧ History m) ?_ hlinked
      ⟨hsame.wellFormed hwf, appends_of_same rfl rfl le_rfl, h.keeps hsame.versions hsame.nextId⟩
    rintro s - m n ⟨hm, happends, hhistory⟩ hstep
    obtain ⟨happends', hhistory'⟩ := linkSighting_history hm hhistory hstep
    exact ⟨linkSighting_wellFormed hm hstep, happends.trans happends', hhistory'⟩
  exact ⟨(hbefore.trans hloop.2.1).trans hafter, hloop.2.2.keeps hsame'.versions hsame'.nextId⟩

/-! ## One call -/

theorem exec_nextId {db : Database} (hs : Sound db) (call : Call) : db.nextId ≤ (exec db call).1.nextId := by
  cases exec_cases hs call with
  | quiet h => exact h.nextId
  | rebuilds h => exact (h.frame hs.toWellFormed).1.nextId
  | edits ncr ncr' h _ _ =>
    rcases h.decisions with ⟨-, hle⟩ | ⟨_, -, heq, -⟩
    · exact hle
    · exact heq ▸ Nat.le_succ _
  | releases ncr ncr' decision now h _ => exact h.nextId ▸ Nat.le_succ _

theorem exec_history {db : Database} (hs : Sound db) (h : History db) (call : Call) :
    Appends db (exec db call).1 ∧ History (exec db call).1 := by
  have hnext := exec_nextId hs call
  have hsame : (exec db call).1.analysisVersions = db.analysisVersions →
      (exec db call).1.analysisEvidence = db.analysisEvidence →
      Appends db (exec db call).1 ∧ History (exec db call).1 := fun hversions hevidence =>
    ⟨appends_of_same hversions hevidence hnext, h.keeps hversions hnext⟩
  cases exec_frame hs call with
  | ingested event receivedAt result _ hingest =>
    exact hsame (ingest_quiet hingest).versions (ingest_quiet hingest).evidence
  | rebuilt itemId _ hrebuild => exact rebuildItem_history hs.toWellFormed h hrebuild
  | failed itemId error _ _ hmarked => exact hsame (by rw [hmarked]; rfl) (by rw [hmarked]; rfl)
  | invalidated body userId _ heq =>
    rw [heq]
    refine (rebuildAll_invariant (P := fun m => WellFormed m ∧ Appends db m ∧ History m) ?_ ?_ ?_ _).2
    · rintro m n itemId ⟨hm, happends, hhistory⟩ hn
      obtain ⟨happends', hhistory'⟩ := rebuildItem_history hm hhistory hn
      exact ⟨rebuildItem_wellFormed hm hn, happends.trans happends', hhistory'⟩
    · exact ⟨hs.toWellFormed, appends_of_same rfl rfl le_rfl, h⟩
    · exact ⟨wellFormed_congr hs.toWellFormed rfl rfl rfl le_rfl, appends_of_same rfl rfl le_rfl,
        h.keeps rfl le_rfl⟩
  | configured config _ heq => exact hsame (by rw [heq]) (by rw [heq])
  | other hother => exact hsame hother.versions hother.evidence

theorem history_initial (config : Configuration) (order : InsertOrder) :
    History { config := config, insertOrder := order } :=
  ⟨by simp, fun _ => List.isChain_nil, List.nodup_nil⟩

theorem reachable_history {db : Database} (h : Reachable db) : History db := by
  refine (Machine.reachable_invariant (P := fun m => Sound m ∧ History m) ?_ ?_ h).2
  · rintro m ⟨config, order, rfl⟩
    exact ⟨sound_initial ⟨config, order, rfl⟩, history_initial config order⟩
  · rintro m call ⟨hs, hm⟩
    exact ⟨exec_sound hs call, (exec_history hs hm call).2⟩

end TraceQ.Backend
