import TraceQ.Backend.Histories
import TraceQ.Library.Transactions

/-! # Rebuilds side by side

Rebuilds of any items as interleaved transactions over the tables of the analyses. Until it commits, a
rebuild keeps its new versions and their evidence to itself and reads them together with what is committed
at that moment. The advisory lock keeps two rebuilds of one item apart.
-/
namespace TraceQ.Backend
open Projections Quality Tables Results ChangeLog Transactions
set_option autoImplicit false
set_option maxHeartbeats 250000

/-! ## Versions -/

/-- The versions of one nonconformance. -/
def ofNcr (ncrId : Uuid) (versions : List AnalysisVersion) : List AnalysisVersion :=
  versions.filter fun version => decide (version.nonconformanceId = ncrId)

/-- What holds of a table of versions whose ids were drawn below `nextId`. -/
structure Numbered (versions : List AnalysisVersion) (nextId : ℕ) : Prop where
  numbers : ∀ ncrId, (ofNcr ncrId versions).map (·.version) =
    List.range' 1 (ofNcr ncrId versions).length
  invalidated_open : ∀ v ∈ versions, v.status = .evidenceInvalidated →
    v.leftBoundaryAt = none ∧ v.rightBoundaryAt = none
  changes : ∀ ncrId, ((ofNcr ncrId versions).map assessmentOf).IsChain (· ≠ ·)
  ids : ∀ v ∈ versions, v.id < nextId
  unique : (versions.map (·.id)).Nodup

theorem Numbered.mono {versions : List AnalysisVersion} {nextId nextId' : ℕ} (h : Numbered versions nextId)
    (hle : nextId ≤ nextId') : Numbered versions nextId' :=
  ⟨h.numbers, h.invalidated_open, h.changes, fun v hv => (h.ids v hv).trans_le hle, h.unique⟩

/-- Two continuations of a table that number other nonconformances and draw other ids fit together. -/
theorem Numbered.merge {versions a b : List AnalysisVersion} {nextId : ℕ}
    (ha : Numbered (versions ++ a) nextId) (hb : Numbered (versions ++ b) nextId)
    (hncrs : ∀ v ∈ a, ∀ u ∈ b, v.nonconformanceId ≠ u.nonconformanceId)
    (hids : ∀ v ∈ a, ∀ u ∈ b, v.id ≠ u.id) : Numbered (versions ++ a ++ b) nextId := by
  -- the versions of one nonconformance continue in one of the two only
  have hside : ∀ ncrId, ofNcr ncrId (versions ++ a ++ b) = ofNcr ncrId (versions ++ a) ∨
      ofNcr ncrId (versions ++ a ++ b) = ofNcr ncrId (versions ++ b) := by
    intro ncrId
    by_cases hnone : ofNcr ncrId b = []
    · left
      rw [ofNcr, List.filter_append, ← ofNcr, ← ofNcr, hnone, List.append_nil]
    · right
      obtain ⟨u, hu⟩ := List.exists_mem_of_ne_nil _ hnone
      obtain ⟨hub, huid⟩ := List.mem_filter.mp hu
      rw [decide_eq_true_eq] at huid
      have hskip : ofNcr ncrId a = [] := by
        rw [ofNcr, List.filter_eq_nil_iff]
        intro v hv hid
        rw [decide_eq_true_eq] at hid
        exact hncrs v hv u hub (hid.trans huid.symm)
      simp only [ofNcr, List.filter_append] at hskip ⊢
      rw [hskip, List.append_nil]
  have hmem : ∀ v ∈ versions ++ a ++ b, v ∈ versions ++ a ∨ v ∈ versions ++ b := by
    intro v hv
    rcases List.mem_append.mp hv with h | h
    · exact .inl h
    · exact .inr (List.mem_append_right _ h)
  refine ⟨fun ncrId => ?_, fun v hv => ?_, fun ncrId => ?_, fun v hv => ?_, ?_⟩
  · rcases hside ncrId with h | h
    · exact h ▸ ha.numbers ncrId
    · exact h ▸ hb.numbers ncrId
  · rcases hmem v hv with h | h
    · exact ha.invalidated_open v h
    · exact hb.invalidated_open v h
  · rcases hside ncrId with h | h
    · exact h ▸ ha.changes ncrId
    · exact h ▸ hb.changes ncrId
  · rcases hmem v hv with h | h
    · exact ha.ids v h
    · exact hb.ids v h
  · have hunique := hb.unique
    rw [List.map_append, List.nodup_append] at hunique ⊢
    refine ⟨ha.unique, hunique.2.1, fun x hx y hy => ?_⟩
    obtain ⟨v, hv, rfl⟩ := List.mem_map.mp hx
    obtain ⟨u, hu, rfl⟩ := List.mem_map.mp hy
    rcases List.mem_append.mp hv with hold | hnew
    · exact hunique.2.2 _ (List.mem_map_of_mem hold) _ (List.mem_map_of_mem hu)
    · exact hids v hnew u hu

theorem numbered_records {db db' : Database} {n : Nonconformance} {a : Option Assessment}
    (h : Numbered db.analysisVersions db.nextId) (hrec : Records db n a db') :
    Numbered db'.analysisVersions db'.nextId := by
  have hhistory := history_records ⟨h.ids, h.changes, h.unique⟩ hrec
  rcases hrec with ⟨-, rfl⟩ | ⟨result, reason, evidence, -, -, hwindow, rfl⟩
  · exact h
  · refine ⟨fun ncrId => ?_, fun v hv => ?_, hhistory.changes, hhistory.ids, hhistory.unique⟩
    · by_cases hid : ncrId = n.id
      · have hnumber := next_number (h.numbers n.id)
        have hself : ofNcr n.id (appendVersion db n result reason evidence).analysisVersions =
            ofNcr n.id db.analysisVersions ++ [newVersion db n result reason] :=
          versionsOf_appendVersion_self
        rw [hid, hself, List.map_append, h.numbers, List.length_append, List.length_singleton,
          List.range'_concat]
        simp [newVersion, hnumber, Nat.add_comm, ofNcr, versionsOf]
      · have hother : ofNcr ncrId (appendVersion db n result reason evidence).analysisVersions =
            ofNcr ncrId db.analysisVersions := versionsOf_appendVersion_other hid
        exact hother ▸ h.numbers ncrId
    · rcases List.mem_append.mp hv with hold | hnew
      · exact h.invalidated_open v hold
      · rw [List.mem_singleton.mp hnew]
        exact hwindow

/-- One of the two creators runs, or none. -/
theorem assessSighting_effect {db db' : Database} (h : Numbered db.analysisVersions db.nextId)
    {n : Nonconformance} {sighting : Sighting} {context : AnalysisContext}
    (hok : assessSighting db n sighting context = .ok db') : ∃ a, Records db n a db' := by
  unfold assessSighting at hok
  cases htrust : sighting.observation.trustStatus with
  | trusted =>
    simp only [htrust] at hok
    cases hresult : calculateBirthWindow sighting context with
    | error e => simp [createAnalysis, hresult, bind, Except.bind] at hok
    | ok result => exact ⟨_, createAnalysis_records (h.numbers n.id) hresult hok⟩
  | invalidated =>
    simp only [htrust] at hok
    rw [← Except.ok.inj hok]
    split
    · exact ⟨_, createInvalidatedAnalysis_records (h.numbers n.id) h.invalidated_open _⟩
    · exact ⟨none, .inl ⟨rfl, rfl⟩⟩
  | untrusted | unassessable | conflicted =>
    simp only [htrust] at hok
    exact ⟨none, .inl ⟨rfl, (Except.ok.inj hok).symm⟩⟩

/-! ## The transactions -/

/-- A rebuild under way, with the rows it has not committed. -/
structure RebuildJob where
  itemId : String
  locked : Bool := false
  versions : List AnalysisVersion := []
  evidence : List AnalysisEvidence := []

/-- What its statements see. -/
def RebuildJob.view (job : RebuildJob) (db : Database) : Database :=
  { db with
    analysisVersions := db.analysisVersions ++ job.versions
    analysisEvidence := db.analysisEvidence ++ job.evidence }

inductive HistoryTransaction where
  | rebuilds (job : RebuildJob)
  /-- Anything else: an ingestion, an endpoint, the mark of a failed rebuild. -/
  | writes

abbrev HistoryWorld := World Database HistoryTransaction

/-- The rebuild waits until no other one holds the lock of its item. -/
inductive HistoryMoves (w : HistoryWorld) (i : ℕ) : HistoryTransaction → HistoryTransaction → Prop where
  | locks (job : RebuildJob)
      (free : ∀ j other, j ≠ i → w.flight j = some (.rebuilds other) → other.locked = true →
        other.itemId ≠ job.itemId) :
      HistoryMoves w i (.rebuilds job) (.rebuilds { job with locked := true })

/-- Generated ids are drawn at once; everything else a rebuild writes waits for its commit. Which
nonconformance of its item a sighting is linked to, and what else the commit writes, is left open: `itemOf`
is the item column of each nonconformance, which no statement updates. -/
inductive HistoryCommits (itemOf : Uuid → String) (w : HistoryWorld) :
    HistoryTransaction → Database → Option HistoryTransaction → Prop where
  | draws (job : RebuildJob) (nextId : ℕ) (fresh : w.committed.nextId ≤ nextId) :
      HistoryCommits itemOf w (.rebuilds job) { w.committed with nextId := nextId } (some (.rebuilds job))
  | assesses (job job' : RebuildJob) (n : Nonconformance) (sighting : Sighting) (context : AnalysisContext)
      (after : Database) (locked : job.locked = true) (item : itemOf n.id = job.itemId)
      (h : assessSighting (job.view w.committed) n sighting context = .ok after)
      (sameItem : job'.itemId = job.itemId) (sameLock : job'.locked = job.locked)
      (versions : after.analysisVersions = w.committed.analysisVersions ++ job'.versions)
      (evidence : after.analysisEvidence = w.committed.analysisEvidence ++ job'.evidence) :
      HistoryCommits itemOf w (.rebuilds job) { w.committed with nextId := after.nextId }
        (some (.rebuilds job'))
  | commits (job : RebuildJob) (db : Database)
      (versions : db.analysisVersions = w.committed.analysisVersions ++ job.versions)
      (evidence : db.analysisEvidence = w.committed.analysisEvidence ++ job.evidence)
      (nextId : w.committed.nextId ≤ db.nextId) :
      HistoryCommits itemOf w (.rebuilds job) db none
  | writes (db : Database) (versions : db.analysisVersions = w.committed.analysisVersions)
      (evidence : db.analysisEvidence = w.committed.analysisEvidence)
      (nextId : w.committed.nextId ≤ db.nextId) :
      HistoryCommits itemOf w .writes db none

/-- Rebuilds of any items beside any other transactions; each may be rolled back before it commits. -/
def historyProtocol (itemOf : Uuid → String) : Protocol Database HistoryTransaction where
  begins l := l = .writes ∨ ∃ itemId, l = .rebuilds { itemId := itemId }
  moves := HistoryMoves
  commits w _ := HistoryCommits itemOf w
  rollsBack _ := True

/-! ## What holds of each transaction -/

structure RebuildValid (itemOf : Uuid → String) (db : Database) (job : RebuildJob) : Prop where
  numbered : Numbered (db.analysisVersions ++ job.versions) db.nextId
  owned : ∀ v ∈ job.versions, itemOf v.nonconformanceId = job.itemId
  idle : job.locked = false → job.versions = []
  rows : ∀ row ∈ job.evidence, ∃ v ∈ job.versions, v.id = row.analysisVersionId

def HistoryValid (itemOf : Uuid → String) (db : Database) : HistoryTransaction → Prop
  | .rebuilds job => RebuildValid itemOf db job
  | .writes => True

/-- Rebuilds hold locks of different items and drew different ids. -/
def RebuildsApart : HistoryTransaction → HistoryTransaction → Prop
  | .rebuilds a, .rebuilds b => (a.locked = true → b.locked = true → a.itemId ≠ b.itemId) ∧
      ∀ v ∈ a.versions, ∀ u ∈ b.versions, v.id ≠ u.id
  | _, _ => True

theorem rebuildsApart_symm (l m : HistoryTransaction) (h : RebuildsApart l m) : RebuildsApart m l := by
  cases l with
  | writes => cases m <;> trivial
  | rebuilds a =>
    cases m with
    | writes => trivial
    | rebuilds b => exact ⟨fun hb ha => (h.1 ha hb).symm, fun u hu v hv => (h.2 v hv u hu).symm⟩

abbrev HistoryHeld (itemOf : Uuid → String) : HistoryWorld → Prop :=
  Protocol.Held (fun db => Numbered db.analysisVersions db.nextId) (HistoryValid itemOf) RebuildsApart

section Steps
variable {itemOf : Uuid → String}

theorem RebuildValid.mono {db db' : Database} {job : RebuildJob} (h : RebuildValid itemOf db job)
    (versions : db'.analysisVersions = db.analysisVersions) (nextId : db.nextId ≤ db'.nextId) :
    RebuildValid itemOf db' job :=
  ⟨versions ▸ h.numbered.mono nextId, h.owned, h.idle, h.rows⟩

theorem HistoryValid.mono {db db' : Database} {l : HistoryTransaction} (h : HistoryValid itemOf db l)
    (versions : db'.analysisVersions = db.analysisVersions) (nextId : db.nextId ≤ db'.nextId) :
    HistoryValid itemOf db' l := by
  cases l with
  | writes => trivial
  | rebuilds job => exact RebuildValid.mono h versions nextId

/-- Two rebuilds that have versions to commit number different nonconformances. -/
theorem ncrs_apart {db : Database} {a b : RebuildJob} (ha : RebuildValid itemOf db a)
    (hb : RebuildValid itemOf db b) (h : RebuildsApart (.rebuilds a) (.rebuilds b)) :
    ∀ v ∈ a.versions, ∀ u ∈ b.versions, v.nonconformanceId ≠ u.nonconformanceId := by
  intro v hv u hu hsame
  have hlocked : ∀ {job : RebuildJob} {x : AnalysisVersion}, RebuildValid itemOf db job →
      x ∈ job.versions → job.locked = true := by
    intro job x hjob hx
    by_contra hunlocked
    rw [hjob.idle (by simpa using hunlocked)] at hx
    cases hx
  have hitem := h.1 (hlocked ha hv) (hlocked hb hu)
  exact hitem (by rw [← ha.owned v hv, ← hb.owned u hu, hsame])

theorem historyMoves_held {w : HistoryWorld} (hw : HistoryHeld itemOf w) {i : ℕ}
    {l l' : HistoryTransaction} (hrunning : w.flight i = some l) (h : HistoryMoves w i l l') :
    HistoryValid itemOf w.committed l' ∧ w.Others i (RebuildsApart l') := by
  cases h with
  | locks job free =>
    have hjob : RebuildValid itemOf w.committed job := hw.each i _ hrunning
    refine ⟨⟨hjob.numbered, hjob.owned, nofun, hjob.rows⟩, fun j m hj hm => ?_⟩
    have hpair := hw.pairs i _ hrunning j m hj hm
    cases m with
    | writes => trivial
    | rebuilds other => exact ⟨fun _ hlocked => (free j other hj hm hlocked).symm, hpair.2⟩

/-- What one assessment adds to the versions and the evidence of a rebuild. -/
theorem assesses_adds {db after : Database} {job job' : RebuildJob} {n : Nonconformance}
    {sighting : Sighting} {context : AnalysisContext} (hjob : RebuildValid itemOf db job)
    (item : itemOf n.id = job.itemId)
    (h : assessSighting (job.view db) n sighting context = .ok after)
    (versions : after.analysisVersions = db.analysisVersions ++ job'.versions)
    (evidence : after.analysisEvidence = db.analysisEvidence ++ job'.evidence)
    (sameItem : job'.itemId = job.itemId) (locked : job'.locked = true) :
    db.nextId ≤ after.nextId ∧ RebuildValid itemOf { db with nextId := after.nextId } job' ∧
      ∀ v ∈ job'.versions, v ∈ job.versions ∨ db.nextId ≤ v.id := by
  have hbefore : Numbered (job.view db).analysisVersions (job.view db).nextId := hjob.numbered
  obtain ⟨a, hrec⟩ := assessSighting_effect hbefore h
  have hnumbered := numbered_records hbefore hrec
  rw [versions] at hnumbered
  have hview : (job.view db).analysisVersions = db.analysisVersions ++ job.versions := rfl
  have hrows : (job.view db).analysisEvidence = db.analysisEvidence ++ job.evidence := rfl
  rcases hrec with ⟨-, rfl⟩ | ⟨result, reason, values, -, -, -, rfl⟩
  · have hsameV : job'.versions = job.versions := List.append_cancel_left (versions.symm.trans hview)
    have hsameE : job'.evidence = job.evidence := List.append_cancel_left (evidence.symm.trans hrows)
    refine ⟨le_rfl, ⟨hnumbered, ?_, ?_, ?_⟩, fun v hv => .inl (hsameV ▸ hv)⟩
    · rw [hsameV, sameItem]
      exact hjob.owned
    · intro hunlocked
      rw [locked] at hunlocked
      cases hunlocked
    · rw [hsameV, hsameE]
      exact hjob.rows
  · have hnew : (newVersion (job.view db) n result reason).id = db.nextId := rfl
    have hnext : db.nextId ≤ (appendVersion (job.view db) n result reason values).nextId :=
      Nat.le_add_right db.nextId 1
    have hafterV : (appendVersion (job.view db) n result reason values).analysisVersions =
        (job.view db).analysisVersions ++ [newVersion (job.view db) n result reason] := rfl
    have hafterE : (appendVersion (job.view db) n result reason values).analysisEvidence =
        (job.view db).analysisEvidence ++ values.map (evidenceRow db.nextId) := rfl
    rw [versions, hview, List.append_assoc] at hafterV
    rw [evidence, hrows, List.append_assoc] at hafterE
    have haddV := List.append_cancel_left hafterV
    have haddE := List.append_cancel_left hafterE
    refine ⟨hnext, ⟨hnumbered, fun v hv => ?_, ?_, fun row hrow => ?_⟩, fun v hv => ?_⟩
    · rw [sameItem]
      rw [haddV] at hv
      rcases List.mem_append.mp hv with hold | hadded
      · exact hjob.owned v hold
      · rw [List.mem_singleton.mp hadded]
        exact item
    · intro hunlocked
      rw [locked] at hunlocked
      cases hunlocked
    · rw [haddV]
      rw [haddE] at hrow
      rcases List.mem_append.mp hrow with hold | hadded
      · obtain ⟨v, hv, hid⟩ := hjob.rows row hold
        exact ⟨v, List.mem_append_left _ hv, hid⟩
      · obtain ⟨value, -, rfl⟩ := List.mem_map.mp hadded
        exact ⟨_, List.mem_append_right _ (List.mem_singleton_self _), hnew⟩
    · rw [haddV] at hv
      rcases List.mem_append.mp hv with hold | hadded
      · exact .inl hold
      · rw [List.mem_singleton.mp hadded, hnew]
        exact .inr le_rfl

theorem historyCommits_held {w : HistoryWorld} (hw : HistoryHeld itemOf w) {i : ℕ}
    {l : HistoryTransaction} (hrunning : w.flight i = some l) {db : Database}
    {l' : Option HistoryTransaction} (h : HistoryCommits itemOf w l db l') :
    Numbered db.analysisVersions db.nextId ∧ w.Others i (HistoryValid itemOf db) ∧
      ∀ m, l' = some m → HistoryValid itemOf db m ∧ w.Others i (RebuildsApart m) := by
  have hl := hw.each i l hrunning
  have hpairs := hw.pairs i l hrunning
  -- an unchanged table of versions is left to the others as it was
  have hkeeps : db.analysisVersions = w.committed.analysisVersions → w.committed.nextId ≤ db.nextId →
      Numbered db.analysisVersions db.nextId ∧ w.Others i (HistoryValid itemOf db) := by
    intro hversions hnext
    exact ⟨hversions ▸ hw.shared.mono hnext, fun j m _ hm => (hw.each j m hm).mono hversions hnext⟩
  cases h with
  | draws job nextId fresh =>
    obtain ⟨hshared, hothers⟩ := hkeeps rfl fresh
    refine ⟨hshared, hothers, fun m hm => ?_⟩
    obtain rfl := Option.some.inj hm
    exact ⟨RebuildValid.mono hl rfl fresh, hpairs⟩
  | assesses job job' n sighting context after locked item h sameItem sameLock versions evidence =>
    obtain ⟨hnext, hvalid, hadded⟩ :=
      assesses_adds hl item h versions evidence sameItem (sameLock.trans locked)
    obtain ⟨hshared, hothers⟩ := hkeeps rfl hnext
    refine ⟨hshared, hothers, fun m hm => ?_⟩
    obtain rfl := Option.some.inj hm
    refine ⟨hvalid, fun j m hj hm => ?_⟩
    have hpair := hpairs j m hj hm
    cases m with
    | writes => trivial
    | rebuilds other =>
      have hother : RebuildValid itemOf w.committed other := hw.each j _ hm
      refine ⟨fun _ hlocked => sameItem ▸ hpair.1 locked hlocked, fun v hv u hu => ?_⟩
      rcases hadded v hv with hold | hnew
      · exact hpair.2 v hold u hu
      · exact ((hother.numbered.ids u (List.mem_append_right _ hu)).trans_le hnew).ne'
  | commits job db versions evidence nextId =>
    have hjob : RebuildValid itemOf w.committed job := hl
    refine ⟨versions ▸ hjob.numbered.mono nextId, fun j m hj hm => ?_, nofun⟩
    cases m with
    | writes => trivial
    | rebuilds other =>
      have hother : RebuildValid itemOf w.committed other := hw.each j _ hm
      have hpair : RebuildsApart (.rebuilds job) (.rebuilds other) := hpairs j _ hj hm
      refine ⟨?_, hother.owned, hother.idle, hother.rows⟩
      rw [versions]
      exact (hjob.numbered.merge hother.numbered (ncrs_apart hjob hother hpair) hpair.2).mono nextId
  | writes db versions evidence nextId =>
    obtain ⟨hshared, hothers⟩ := hkeeps versions nextId
    exact ⟨hshared, hothers, nofun⟩

theorem rebuildValid_start {db : Database} (h : Numbered db.analysisVersions db.nextId) (itemId : String) :
    RebuildValid itemOf db { itemId := itemId } := by
  refine ⟨by simpa using h, fun v hv => ?_, fun _ => rfl, fun row hrow => ?_⟩
  · exact absurd hv List.not_mem_nil
  · exact absurd hrow List.not_mem_nil

theorem rebuildsApart_start (itemId : String) (m : HistoryTransaction) :
    RebuildsApart (.rebuilds { itemId := itemId }) m := by
  cases m with
  | writes => trivial
  | rebuilds other =>
    refine ⟨fun hlocked => ?_, fun v hv => ?_⟩
    · cases hlocked
    · exact absurd hv List.not_mem_nil

theorem history_step {w w' : HistoryWorld} (hw : HistoryHeld itemOf w)
    (hstep : (historyProtocol itemOf).Step w w') : HistoryHeld itemOf w' := by
  refine Protocol.held_step rebuildsApart_symm ?_ ?_ ?_ hw hstep
  · rintro db l hdb (rfl | ⟨itemId, rfl⟩)
    · exact ⟨trivial, fun m => by cases m <;> trivial⟩
    · exact ⟨rebuildValid_start hdb itemId, rebuildsApart_start itemId⟩
  · exact fun w i l l' hw hrunning h => historyMoves_held hw hrunning h
  · exact fun w i l s l' hw hrunning h => historyCommits_held hw hrunning h

end Steps

end TraceQ.Backend
