import TraceQ.Backend.ConcurrentRebuilds
import TraceQ.Properties.Reopening

/-! # The history of the analyses

The versions of a nonconformance are numbered without a gap, the ones that exist stay with their evidence,
and each differs from the one before it. This holds of every run of calls and of all interleavings of
rebuilds with each other and with anything else.
-/
namespace TraceQ.Properties
open Projections Ingestion Api Quality Tables Results ChangeLog Transactions Backend
set_option autoImplicit false
set_option maxHeartbeats 250000

/-! ## What is kept -/

/-- The versions of each nonconformance are 1 to `n`, two that follow each other differ in their status or in
a boundary, and no invalidated one follows another. -/
structure GapFree (db : Database) : Prop where
  numbered : ∀ ncrId, (versionsOf db ncrId).map (·.version) =
    List.range' 1 (versionsOf db ncrId).length
  differ : ∀ ncrId, (versionsOf db ncrId).IsChain fun a b =>
    a.status ≠ b.status ∨ a.leftBoundaryAt ≠ b.leftBoundaryAt ∨ a.rightBoundaryAt ≠ b.rightBoundaryAt
  invalidated : ∀ ncrId, (versionsOf db ncrId).IsChain fun a b =>
    ¬ (a.status = .evidenceInvalidated ∧ b.status = .evidenceInvalidated)

/-- The versions of `db` are still there as they were, with the same evidence, and the new ones of each
nonconformance come after them. -/
structure HistoryKept (db db' : Database) : Prop where
  versions : ∀ ncrId, versionsOf db ncrId <+: versionsOf db' ncrId
  stored : db.analysisVersions ⊆ db'.analysisVersions
  evidence : ∀ v ∈ db.analysisVersions, evidenceOf db' v.id = evidenceOf db v.id

theorem HistoryKept.refl (db : Database) : HistoryKept db db :=
  ⟨fun _ => List.prefix_rfl, List.Subset.refl _, fun _ _ => rfl⟩

theorem HistoryKept.trans {a b c : Database} (hab : HistoryKept a b) (hbc : HistoryKept b c) :
    HistoryKept a c :=
  ⟨fun ncrId => (hab.versions ncrId).trans (hbc.versions ncrId), List.Subset.trans hab.stored hbc.stored,
    fun v hv => (hbc.evidence v (hab.stored hv)).trans (hab.evidence v hv)⟩

/-- Two invalidated versions have no boundaries, so they do not differ. -/
theorem gapFree_of_numbered {db : Database} (h : Numbered db.analysisVersions db.nextId) : GapFree db := by
  have hdiffer : ∀ ncrId, (versionsOf db ncrId).IsChain fun a b => a.status ≠ b.status ∨
      a.leftBoundaryAt ≠ b.leftBoundaryAt ∨ a.rightBoundaryAt ≠ b.rightBoundaryAt := by
    intro ncrId
    refine List.isChain_of_isChain_map assessmentOf (fun a b hne => ?_) (h.changes ncrId)
    by_contra hsame
    rw [not_or, not_or, not_not, not_not, not_not] at hsame
    exact hne (by rw [assessmentOf, assessmentOf, hsame.1, hsame.2.1, hsame.2.2])
  refine ⟨h.numbers, hdiffer, fun ncrId => ?_⟩
  refine List.IsChain.imp_of_mem_imp ?_ (hdiffer ncrId)
  rintro a b ha hb hne ⟨hastatus, hbstatus⟩
  obtain ⟨haleft, haright⟩ := h.invalidated_open a (mem_versionsOf.mp ha).1 hastatus
  obtain ⟨hbleft, hbright⟩ := h.invalidated_open b (mem_versionsOf.mp hb).1 hbstatus
  rcases hne with hstatus | hleft | hright
  · exact hstatus (hastatus.trans hbstatus.symm)
  · exact hleft (haleft.trans hbleft.symm)
  · exact hright (haright.trans hbright.symm)

/-! ## Runs of calls -/

theorem historyKept_of_appends {db db' : Database} (h : History db) (happends : Appends db db') :
    HistoryKept db db' := by
  refine ⟨happends.versionsOf, ?_, fun v hv => happends.evidenceOf (h.ids v hv)⟩
  obtain ⟨fresh, heq, -⟩ := happends.versions
  rw [heq]
  exact List.subset_append_left _ _

theorem run_historyKept {db : Database} (hs : Sound db) (h : History db) (calls : List Call) :
    HistoryKept db (run db calls) := by
  refine Machine.run_related (P := fun m => Sound m ∧ History m) (r := HistoryKept) HistoryKept.refl
    HistoryKept.trans ?_ ⟨hs, h⟩ calls
  rintro m call ⟨hm, hhistory⟩
  obtain ⟨happends, hhistory'⟩ := exec_history hm hhistory call
  exact ⟨⟨exec_sound hm call, hhistory'⟩, historyKept_of_appends hhistory happends⟩

theorem numbered_of_history {db : Database} (hs : Sound db) (h : History db) :
    Numbered db.analysisVersions db.nextId :=
  ⟨hs.versions_numbered, hs.invalidated_open, h.changes, h.ids, h.unique⟩

/-! ## Interleavings -/

section Interleavings
variable {itemOf : Uuid → String}

theorem historyCommits_kept {w : HistoryWorld} (hw : HistoryHeld itemOf w) {i : ℕ}
    {l : HistoryTransaction} (hrunning : w.flight i = some l) {db : Database}
    {l' : Option HistoryTransaction} (h : HistoryCommits itemOf w l db l') :
    HistoryKept w.committed db := by
  have hsame : db.analysisVersions = w.committed.analysisVersions →
      db.analysisEvidence = w.committed.analysisEvidence → HistoryKept w.committed db := by
    intro hversions hevidence
    refine ⟨fun ncrId => ?_, hversions ▸ List.Subset.refl _, fun v _ => ?_⟩
    · rw [versionsOf, versionsOf, hversions]
    · rw [evidenceOf, evidenceOf, hevidence]
  cases h with
  | draws job nextId fresh => exact hsame rfl rfl
  | assesses job job' n sighting context after locked item h sameItem sameLock versions evidence =>
    exact hsame rfl rfl
  | writes db versions evidence nextId => exact hsame versions evidence
  | commits job db versions evidence nextId =>
    have hjob : RebuildValid itemOf w.committed job := hw.each i _ hrunning
    refine ⟨fun ncrId => ?_, versions ▸ List.subset_append_left _ _, fun v hv => ?_⟩
    · rw [versionsOf, versionsOf, versions, List.filter_append]
      exact List.prefix_append _ _
    · -- evidence a rebuild commits belongs to its own versions, which have other ids
      have hnone : job.evidence.filter (fun row => decide (row.analysisVersionId = v.id)) = [] := by
        rw [List.filter_eq_nil_iff]
        intro row hrow hid
        rw [decide_eq_true_eq] at hid
        obtain ⟨u, hu, huid⟩ := hjob.rows row hrow
        have hunique := hjob.numbered.unique
        rw [List.map_append, List.nodup_append] at hunique
        exact hunique.2.2 _ (List.mem_map_of_mem hv) _ (List.mem_map_of_mem hu) (hid.symm.trans huid.symm)
      rw [evidenceOf, evidenceOf, evidence, List.filter_append, hnone, List.append_nil]

theorem history_reachable {w w' : HistoryWorld} (hw : HistoryHeld itemOf w)
    (h : (historyProtocol itemOf).Reachable w w') :
    HistoryHeld itemOf w' ∧ HistoryKept w.committed w'.committed := by
  refine Protocol.invariant (P := fun m => HistoryHeld itemOf m ∧ HistoryKept w.committed m.committed) ?_
    ⟨hw, HistoryKept.refl _⟩ h
  rintro a b ⟨ha, hkept⟩ hstep
  refine ⟨history_step ha hstep, ?_⟩
  cases hstep with
  | commits i l s l' running hcommit => exact hkept.trans (historyCommits_kept ha running hcommit)
  | _ => exact hkept

end Interleavings

/-! ## A rebuild alone -/

section Alone
variable {itemOf : Uuid → String} {start : Database} {itemId : String}

/-- The job has done what the loop did to the tables of the analyses. -/
structure Follows (start m : Database) (job : RebuildJob) : Prop where
  versions : m.analysisVersions = start.analysisVersions ++ job.versions
  evidence : m.analysisEvidence = start.analysisEvidence ++ job.evidence

/-- An assessment reads the versions of the nonconformance and the next id, nothing else. -/
theorem assessSighting_congr {m m' n : Database} {ncr : Nonconformance} {sighting : Sighting}
    {context : AnalysisContext} (versions : m'.analysisVersions = m.analysisVersions)
    (evidence : m'.analysisEvidence = m.analysisEvidence) (nextId : m'.nextId = m.nextId)
    (h : assessSighting m ncr sighting context = .ok n) :
    ∃ n', assessSighting m' ncr sighting context = .ok n' ∧ n'.analysisVersions = n.analysisVersions ∧
      n'.analysisEvidence = n.analysisEvidence ∧ n'.nextId = n.nextId := by
  have hlatest : latestAnalysis m' ncr.id = latestAnalysis m ncr.id := by
    rw [latestAnalysis, latestAnalysis, versionsOf, versionsOf, versions]
  have happend : ∀ result reason values, (appendVersion m' ncr result reason values).analysisVersions =
        (appendVersion m ncr result reason values).analysisVersions ∧
      (appendVersion m' ncr result reason values).analysisEvidence =
        (appendVersion m ncr result reason values).analysisEvidence ∧
      (appendVersion m' ncr result reason values).nextId =
        (appendVersion m ncr result reason values).nextId := by
    intro result reason values
    simp only [appendVersion, newVersion, versions, evidence, nextId, hlatest, and_self]
  unfold assessSighting at h ⊢
  cases htrust : sighting.observation.trustStatus with
  | trusted =>
    simp only [htrust] at h
    obtain ⟨result, hresult, h⟩ := bind_ok.mp h
    have hn := pure_ok.mp h
    refine ⟨_, bind_ok.mpr ⟨result, hresult, rfl⟩, ?_⟩
    rw [← hn, hlatest]
    split
    · exact happend _ _ _
    · exact ⟨versions, evidence, nextId⟩
  | invalidated =>
    simp only [htrust] at h
    refine ⟨_, rfl, ?_⟩
    rw [← Except.ok.inj h]
    split
    · simp only [createInvalidatedAnalysis, hlatest]
      split
      · exact ⟨versions, evidence, nextId⟩
      · exact happend _ _ _
    · exact ⟨versions, evidence, nextId⟩
  | untrusted | unassessable | conflicted =>
    simp only [htrust] at h
    rw [← Except.ok.inj h]
    exact ⟨m', rfl, versions, evidence, nextId⟩

/-- The world of a rebuild that is alone and has drawn ids below `nextId`. -/
def aloneWith (start : Database) (nextId : ℕ) (job : RebuildJob) : HistoryWorld :=
  Protocol.alone { start with nextId := nextId } (.rebuilds job)

theorem linked_ncr {m : Database} (hwf : WellFormed m) (itemId : String) (sighting : Sighting) :
    ∃ linked ncr, linkNcr (linkOccurrence m itemId sighting).1 (linkOccurrence m itemId sighting).2 itemId
        sighting = (linked, ncr) ∧ WellFormed linked ∧ ncr ∈ linked.nonconformances ∧
      ncr.itemId = itemId ∧ linked.analysisVersions = m.analysisVersions ∧
      linked.analysisEvidence = m.analysisEvidence ∧ m.nextId ≤ linked.nextId := by
  cases hopen : findOpenOccurrence m itemId sighting.key with
  | some o =>
    obtain ⟨ncr, hncr, hlink⟩ := link_open hwf hopen
    obtain ⟨hmem, hocc⟩ := (findNcr_iff hwf).mp hncr
    obtain ⟨ho, hitem, -, -⟩ := (findOpenOccurrence_iff hwf).mp hopen
    obtain ⟨owner, howner, hid, howns, -⟩ := hwf.occurrence_of_ncr ncr hmem
    obtain rfl := eq_of_nodup_map hwf.occurrence_ids howner ho (hid.trans hocc)
    exact ⟨_, ncr, hlink, wellFormed_touchOccurrence hwf _ _, hmem, howns.symm.trans hitem, rfl, rfl, le_rfl⟩
  | none =>
    exact ⟨_, _, link_new hwf hopen, wellFormed_openCase hwf hopen,
      List.mem_append_right _ (List.mem_singleton_self _), rfl, rfl, rfl, by simp [openCase]⟩

/-- One turn of the loop is a draw of ids and an assessment. -/
theorem linkSighting_follows {world : HistoryWorld} {m n : Database} (hwf : WellFormed m) {job : RebuildJob}
    (hlocked : job.locked = true) (hjob : job.itemId = itemId) (hfollows : Follows start m job)
    (hreach : (historyProtocol itemOf).Reachable world (aloneWith start m.nextId job))
    (hitems : ∀ ncr ∈ n.nonconformances, itemOf ncr.id = ncr.itemId)
    {context : AnalysisContext} {sighting : Sighting}
    (h : linkSighting itemId context m sighting = .ok n) :
    ∃ job', job'.locked = true ∧ job'.itemId = itemId ∧ Follows start n job' ∧
      (historyProtocol itemOf).Reachable world (aloneWith start n.nextId job') := by
  obtain ⟨linked, ncr, hlink, hlinked, hmem, hitem, hversions, hevidence, hle⟩ :=
    linked_ncr hwf itemId sighting
  simp only [linkSighting, hlink] at h
  have hrec := assessSighting_records hlinked hmem h
  have hitemOf : itemOf ncr.id = job.itemId := by
    obtain ⟨kept, hkept, hfixed⟩ := hrec.grows.keepsNcr hmem
    have hid : kept.id = ncr.id := (congrArg Nonconformance.id hfixed :)
    have hkeptItem : kept.itemId = ncr.itemId := (congrArg Nonconformance.itemId hfixed :)
    rw [← hid, hitems kept hkept, hkeptItem, hitem, hjob]
  have hdrawn : (historyProtocol itemOf).Reachable world (aloneWith start linked.nextId job) :=
    Protocol.alone_advances hreach (HistoryCommits.draws job linked.nextId hle)
  have hviewV : (job.view { start with nextId := linked.nextId }).analysisVersions =
      linked.analysisVersions := hfollows.versions.symm.trans hversions.symm
  have hviewE : (job.view { start with nextId := linked.nextId }).analysisEvidence =
      linked.analysisEvidence := hfollows.evidence.symm.trans hevidence.symm
  obtain ⟨after, hafter, hafterV, hafterE, hafterN⟩ := assessSighting_congr hviewV hviewE rfl h
  -- the rows of the loop are those of the job, and more
  have happends := (appends_of_same hversions hevidence hle).trans (appends_records hrec)
  obtain ⟨⟨newV, hnewV, -⟩, ⟨newE, hnewE, -⟩, -⟩ := happends
  rw [hfollows.versions, List.append_assoc] at hnewV
  rw [hfollows.evidence, List.append_assoc] at hnewE
  let job' : RebuildJob :=
    { job with versions := job.versions ++ newV, evidence := job.evidence ++ newE }
  refine ⟨job', hlocked, hjob, ⟨hnewV, hnewE⟩, ?_⟩
  have hcommit : HistoryCommits itemOf (aloneWith start linked.nextId job) (.rebuilds job)
      { start with nextId := after.nextId } (some (.rebuilds job')) :=
    .assesses job job' ncr sighting context after hlocked hitemOf hafter rfl rfl (hafterV.trans hnewV)
      (hafterE.trans hnewE)
  rw [hafterN] at hcommit
  exact Protocol.alone_advances hdrawn hcommit

/-- Every nonconformance keeps its id and its item. -/
theorem itemOf_grows {m n : Database} (hgrows : Grows m n)
    (h : ∀ ncr ∈ n.nonconformances, itemOf ncr.id = ncr.itemId) :
    ∀ ncr ∈ m.nonconformances, itemOf ncr.id = ncr.itemId := by
  intro ncr hncr
  obtain ⟨kept, hkept, hfixed⟩ := hgrows.keepsNcr hncr
  have hid : kept.id = ncr.id := (congrArg Nonconformance.id hfixed :)
  have hitem : kept.itemId = ncr.itemId := (congrArg Nonconformance.itemId hfixed :)
  rw [← hid, h kept hkept, hitem]

theorem linkSightings_follows {world : HistoryWorld} {m n : Database} (hwf : WellFormed m) {job : RebuildJob}
    (hlocked : job.locked = true) (hjob : job.itemId = itemId) (hfollows : Follows start m job)
    (hreach : (historyProtocol itemOf).Reachable world (aloneWith start m.nextId job))
    (hitems : ∀ ncr ∈ n.nonconformances, itemOf ncr.id = ncr.itemId)
    {context : AnalysisContext} {found : List Sighting}
    (h : linkSightings itemId context m found = .ok n) :
    ∃ job', job'.itemId = itemId ∧ Follows start n job' ∧
      (historyProtocol itemOf).Reachable world (aloneWith start n.nextId job') := by
  induction found generalizing m job with
  | nil =>
    obtain rfl := Except.ok.inj h
    exact ⟨job, hjob, hfollows, hreach⟩
  | cons sighting rest ih =>
    obtain ⟨mid, hmid, hrest⟩ := foldlM_cons_ok.mp h
    have hwf' := linkSighting_wellFormed hwf hmid
    have hitems' := itemOf_grows (linkSightings_grows hwf' hrest) hitems
    obtain ⟨job', hlocked', hjob', hfollows', hreach'⟩ :=
      linkSighting_follows hwf hlocked hjob hfollows hreach hitems' hmid
    exact ih hwf' hlocked' hjob' hfollows' hreach' hrest

/-- A rebuild that succeeds is a run of the protocol in which it is alone. -/
theorem rebuild_reaches {db db' : Database} (hwf : WellFormed db) (h : rebuildItem db itemId = .ok db')
    (hitems : ∀ ncr ∈ db'.nonconformances, itemOf ncr.id = ncr.itemId) :
    (historyProtocol itemOf).Reachable (World.quiet db) (World.quiet db') := by
  obtain ⟨registered, linked, hsame, -, hlinked, hsame', -, -⟩ := rebuildItem_links h
  have hbegins : (historyProtocol itemOf).Reachable (World.quiet db)
      (aloneWith db db.nextId { itemId := itemId }) :=
    Protocol.alone_begins db (.inr ⟨itemId, rfl⟩)
  have hlocks : (historyProtocol itemOf).Reachable (World.quiet db)
      (aloneWith db db.nextId { itemId := itemId, locked := true }) := by
    refine Protocol.alone_moves hbegins (HistoryMoves.locks _ fun j other hj hother => ?_)
    simp [Protocol.alone, World.quiet, World.set, hj] at hother
  have hdraws : (historyProtocol itemOf).Reachable (World.quiet db)
      (aloneWith db registered.nextId { itemId := itemId, locked := true }) :=
    Protocol.alone_advances hlocks (HistoryCommits.draws _ registered.nextId hsame.nextId)
  have hstart : Follows db registered { itemId := itemId, locked := true } :=
    ⟨by simp [hsame.versions], by simp [hsame.evidence]⟩
  have hlinkedItems : ∀ ncr ∈ linked.nonconformances, itemOf ncr.id = ncr.itemId :=
    fun ncr hncr => hitems ncr (hsame'.nonconformances ▸ hncr)
  obtain ⟨job, -, hfollows, hreach⟩ := linkSightings_follows (hsame.wellFormed hwf) rfl rfl hstart hdraws
    hlinkedItems hlinked
  exact Protocol.alone_commits hreach (HistoryCommits.commits job db'
    (hsame'.versions.trans hfollows.versions) (hsame'.evidence.trans hfollows.evidence) hsame'.nextId)

end Alone

/-! ## Every run, every interleaving -/

/-- In every run of calls from a reachable state, and in every interleaving of rebuilds with each other and
with anything else, the history has no gap, no repetition, and is only ever extended. -/
theorem analysis_history (itemOf : Uuid → String) {db : Database} (hdb : Reachable db) :
    (∀ front rest : List Call, GapFree (run db front) ∧
      HistoryKept (run db front) (run (run db front) rest)) ∧
    ∀ w w' : HistoryWorld, (historyProtocol itemOf).Reachable (World.quiet db) w →
      (historyProtocol itemOf).Reachable w w' →
      GapFree w.committed ∧ HistoryKept w.committed w'.committed := by
  have hnumbered : ∀ {m : Database}, Reachable m → Numbered m.analysisVersions m.nextId :=
    fun hm => numbered_of_history (reachable_sound hm) (reachable_history hm)
  refine ⟨fun front rest => ?_, fun w w' hw hw' => ?_⟩
  · have hfront := reachable_run hdb front
    exact ⟨gapFree_of_numbered (hnumbered hfront),
      run_historyKept (reachable_sound hfront) (reachable_history hfront) rest⟩
  · have hheld := (history_reachable (Protocol.held_quiet (hnumbered hdb)) hw).1
    exact ⟨gapFree_of_numbered hheld.shared, (history_reachable hheld hw').2⟩

theorem analysis_history_accepted_scratch :
    GapFree (run parentsFirst acceptedScratch) ∧
      HistoryKept (run parentsFirst acceptedScratch) (rebuildOrMark (run parentsFirst acceptedScratch) "item-1") := by
  have hitems : ∀ ncr ∈ (rebuildOrMark (run parentsFirst acceptedScratch) "item-1").nonconformances,
      "item-1" = ncr.itemId := by decide +kernel
  have hreach : (historyProtocol fun _ => "item-1").Reachable (World.quiet (run parentsFirst acceptedScratch))
      (World.quiet (rebuildOrMark (run parentsFirst acceptedScratch) "item-1")) :=
    rebuild_reaches (reachable_sound acceptedScratch_reachable).toWellFormed
      (rebuildItem_rebuildOrMark (by decide +kernel)) hitems
  exact (analysis_history (fun _ => "item-1") acceptedScratch_reachable).2 _ _ .refl hreach

end TraceQ.Properties
