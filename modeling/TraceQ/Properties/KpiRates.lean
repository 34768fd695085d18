import TraceQ.Api.Analytics
import TraceQ.Backend.RowSources
import TraceQ.Properties.DeviceInvalidation
import TraceQ.Properties.ItemSources
import TraceQ.Properties.Lifecycle
import TraceQ.Properties.VersionPointers

/-! # Rates of the quality figures

The first pass yield subtracts the items with a confirmed nonconformance from the items with a trusted
observation, and the rework rate divides the items of the rework runs by the registered items. No query bounds
the first of each pair by the second, so the rates are proportions as long as no call counts an item in one and
not in the other.
-/
namespace TraceQ.Properties
open Projections Ingestion Api Quality Tables Results Backend
set_option autoImplicit false
set_option maxHeartbeats 250000

/-! ## Counting -/

/-- `None`, or between 0 and 1. -/
def IsProportion (rate : Option ℚ) : Prop := ∀ value, rate = some value → 0 ≤ value ∧ value ≤ 1

theorem countDistinct_le_length {column table : List String} (h : column ⊆ table) :
    countDistinct column ≤ table.length := by
  have hsub : column.dedup ⊆ table := fun id hid => h (List.mem_dedup.mp hid)
  exact (List.nodup_dedup column).subperm hsub |>.length_le

theorem countDistinct_le {column column' : List String} (h : column ⊆ column') :
    countDistinct column ≤ countDistinct column' :=
  countDistinct_le_length fun _ hid => List.mem_dedup.mpr (h hid)

/-- A part of a whole. -/
theorem isProportion_part {part whole : ℕ} (h : part ≤ whole) :
    IsProportion (if whole = 0 then none else some (part / whole)) := by
  intro value hvalue
  split at hvalue
  · cases hvalue
  · rename_i hwhole
    have hpos : (0 : ℚ) < whole := Nat.cast_pos.mpr (Nat.pos_of_ne_zero hwhole)
    obtain rfl := Option.some.inj hvalue
    refine ⟨div_nonneg (Nat.cast_nonneg part) hpos.le, (div_le_one hpos).mpr ?_⟩
    exact Nat.cast_le.mpr h

/-- The rest of a whole without a part. -/
theorem isProportion_rest {part whole : ℕ} (h : part ≤ whole) :
    IsProportion (if whole = 0 then none else some ((whole - part) / whole)) := by
  have hcast : ((whole - part : ℕ) : ℚ) = whole - part := Nat.cast_sub h
  rw [← hcast]
  exact isProportion_part (Nat.sub_le whole part)

/-! ## What the rates need -/

/-- Every item with a confirmed nonconformance has a trusted observation, and every item with a rework run is
registered. -/
structure Accounted (db : Database) : Prop where
  confirmed : confirmedItems db ⊆ trustedItems db
  reworked : ∀ itemId ∈ reworkItems db, (findItem db itemId).isSome = true

theorem findItem_isSome {db : Database} {itemId : String} :
    (findItem db itemId).isSome = true ↔ itemId ∈ db.items.map (·.itemId) := by
  simp [findItem, List.find?_isSome]

theorem Accounted.rates {db : Database} (h : Accounted db) (calculatedAt : Instant) :
    IsProportion (qualityKpi db calculatedAt).firstPassYield ∧
      IsProportion (qualityKpi db calculatedAt).reworkItemRate := by
  have hregistered : reworkItems db ⊆ db.items.map (·.itemId) :=
    fun itemId hitem => findItem_isSome.mp (h.reworked itemId hitem)
  have hrework := countDistinct_le_length hregistered
  rw [List.length_map] at hrework
  exact ⟨isProportion_rest (countDistinct_le h.confirmed), isProportion_part hrework⟩

/-- The rows that count are kept, and every nonconformance confirmed is of an assessable item. -/
theorem Accounted.keeps {db db' : Database} (h : Accounted db) (hobservations : db'.observations = db.observations)
    (hruns : db'.operationRuns = db.operationRuns)
    (hitems : db'.items.map (·.itemId) = db.items.map (·.itemId))
    (hconfirmed : confirmedItems db' ⊆ trustedItems db) : Accounted db' := by
  constructor
  · rw [trustedItems, hobservations]
    exact hconfirmed
  · rw [reworkItems, hruns]
    intro itemId hitem
    rw [findItem_isSome, hitems, ← findItem_isSome]
    exact h.reworked itemId hitem

theorem Accounted.keepsCases {db db' : Database} (h : Accounted db) (hobservations : db'.observations = db.observations)
    (hruns : db'.operationRuns = db.operationRuns) (hitems : db'.items = db.items)
    (hncrs : db'.nonconformances = db.nonconformances) : Accounted db' := by
  refine h.keeps hobservations hruns (by rw [hitems]) ?_
  rw [confirmedItems, hncrs]
  exact h.confirmed

/-! ## Members of the columns -/

theorem mem_trustedItems {db : Database} {itemId : String} : itemId ∈ trustedItems db ↔
    ∃ obs ∈ ownedBy (·.itemId) itemId db.observations, obs.trustStatus = .trusted := by
  simp only [trustedItems, List.mem_map, List.mem_filter, decide_eq_true_eq, mem_ownedBy]
  constructor
  · rintro ⟨obs, ⟨hmem, htrusted⟩, hitem⟩
    exact ⟨obs, ⟨hmem, hitem⟩, htrusted⟩
  · rintro ⟨obs, ⟨hmem, hitem⟩, htrusted⟩
    exact ⟨obs, ⟨hmem, htrusted⟩, hitem⟩

theorem mem_reworkItems {db : Database} {itemId : String} : itemId ∈ reworkItems db ↔
    ∃ run ∈ ownedBy (·.itemId) itemId db.operationRuns, run.runReason = .rework := by
  simp only [reworkItems, List.mem_map, List.mem_filter, decide_eq_true_eq, mem_ownedBy]
  constructor
  · rintro ⟨run, ⟨hmem, hrework⟩, hitem⟩
    exact ⟨run, ⟨hmem, hitem⟩, hrework⟩
  · rintro ⟨run, ⟨hmem, hitem⟩, hrework⟩
    exact ⟨run, ⟨hmem, hrework⟩, hitem⟩

theorem operationRunRows_reasons {itemId : String} {runs : List OperationValue} {rows : List OperationRun}
    (h : operationRunRows itemId runs = .ok rows) : rows.map (·.runReason) = runs.map (·.runReason) := by
  induction runs generalizing rows with
  | nil =>
    rw [operationRunRows] at h
    rw [← Except.ok.inj h]
    rfl
  | cons run rest ih =>
    rw [operationRunRows] at h
    obtain ⟨row, hrow, h⟩ := bind_ok.mp h
    obtain ⟨others, hothers, h⟩ := bind_ok.mp h
    obtain ⟨rework, -, hrow⟩ := bind_ok.mp hrow
    rw [← pure_ok.mp h, List.map_cons, List.map_cons, ih hothers, ← pure_ok.mp hrow]

/-- Which items count as confirmed depends on two columns. -/
theorem confirmedItems_congr {db db' : Database}
    (h : db'.nonconformances.map (fun ncr => (ncr.itemId, ncr.verdict)) =
      db.nonconformances.map fun ncr => (ncr.itemId, ncr.verdict)) : confirmedItems db' = confirmedItems db := by
  have hcolumns : ∀ m : Database, confirmedItems m =
      ((m.nonconformances.map fun ncr => (ncr.itemId, ncr.verdict)).filter
        fun columns => decide (columns.2 = .confirmed)).map (·.1) := by
    intro m
    rw [List.filter_map, List.map_map]
    rfl
  rw [hcolumns, hcolumns, h]

/-- A nonconformance that is written back counts if it is confirmed. -/
theorem confirmedItems_saveNcr {db : Database} {ncr : Nonconformance} {allowed : List String}
    (hold : confirmedItems db ⊆ allowed) (hnew : ncr.verdict = .confirmed → ncr.itemId ∈ allowed) :
    confirmedItems (saveNcr db ncr) ⊆ allowed := by
  intro itemId hitem
  obtain ⟨row, hrow, rfl⟩ := List.mem_map.mp hitem
  obtain ⟨hmem, hconfirmed⟩ := List.mem_filter.mp hrow
  rw [decide_eq_true_eq] at hconfirmed
  obtain ⟨old, holdMem, rfl⟩ := mem_modifyWhere.mp hmem
  by_cases hid : old.id = ncr.id
  · simp only [hid, decide_true, if_true] at hconfirmed ⊢
    exact hnew hconfirmed
  · simp only [hid, decide_false, Bool.false_eq_true, if_false] at hconfirmed ⊢
    exact hold (List.mem_map_of_mem (List.mem_filter.mpr ⟨holdMem, by simp [hconfirmed]⟩))

theorem mem_confirmedItems {db : Database} {ncr : Nonconformance} (h : ncr ∈ db.nonconformances)
    (hconfirmed : ncr.verdict = .confirmed) : ncr.itemId ∈ confirmedItems db :=
  List.mem_map_of_mem (List.mem_filter.mpr ⟨h, by simp [hconfirmed]⟩)

/-! ## One rebuild -/

/-- A linked sighting opens a case undecided and keeps every verdict. -/
theorem confirmedItems_linkSighting {db db' : Database} (h : WellFormed db) {itemId : String}
    {context : AnalysisContext} {sighting : Sighting} (hok : linkSighting itemId context db sighting = .ok db') :
    confirmedItems db' = confirmedItems db := by
  have hrecords : ∀ {m m' : Database} {ncr : Nonconformance} {assessment : Option Assessment},
      Records m ncr assessment m' → confirmedItems m' = confirmedItems m := by
    intro m m' ncr assessment hrec
    rcases hrec with ⟨-, rfl⟩ | ⟨result, reason, evidence, -, -, -, rfl⟩
    · rfl
    · refine confirmedItems_congr (map_modifyWhere ?_ m.nonconformances)
      exact fun _ => rfl
  rcases linkSighting_cases h hok with ⟨o, n, -, -, hrec⟩ | ⟨-, hrec⟩
  · rw [hrecords hrec]
    rfl
  · have hundecided : openingVerdict sighting.observation.trustStatus ≠ .confirmed := by
      unfold openingVerdict
      split <;> decide
    rw [hrecords hrec, confirmedItems, openCase, List.filter_append]
    simp [confirmedItems, newNcr, hundecided]

/-- What a rebuild of the item has to find: a trusted observation if a confirmed nonconformance counts the item, a
registration if its runs count the item as reworked. -/
structure RebuildAccounts (db : Database) (itemId : String) : Prop where
  assessable : itemId ∈ confirmedItems db →
    ∃ obs ∈ (replay db itemId).observations, obs.trustStatus = .trusted
  registered : (∃ run ∈ (replay db itemId).operations, run.runReason = .rework) →
    (findItem db itemId).isSome = true ∨ (replay db itemId).item.isSome = true

section Rebuild
variable {db db' : Database} (hwf : WellFormed db) {target : String}
  (h : rebuildItem db target = .ok db')
include hwf h

theorem confirmedItems_rebuild : confirmedItems db' = confirmedItems db := by
  obtain ⟨registered, linked, hsame, -, hlinked, hsame', -, -⟩ := rebuildItem_links h
  have hkept : WellFormed linked ∧ confirmedItems linked = confirmedItems registered := by
    refine foldlM_invariant (P := fun m => WellFormed m ∧ confirmedItems m = confirmedItems registered) ?_
      hlinked ⟨hsame.wellFormed hwf, rfl⟩
    rintro sighting - m n ⟨hm, hcount⟩ hn
    exact ⟨linkSighting_wellFormed hm hn, (confirmedItems_linkSighting hm hn).trans hcount⟩
  rw [confirmedItems, hsame'.nonconformances, ← confirmedItems, hkept.2, confirmedItems, hsame.nonconformances,
    confirmedItems]

/-- The items that another item's rebuild leaves assessable. -/
theorem trustedItems_rebuild_other {itemId : String} (hother : itemId ≠ target) :
    itemId ∈ trustedItems db' ↔ itemId ∈ trustedItems db := by
  rw [mem_trustedItems, mem_trustedItems, (rebuildItem_observations_other hwf h hother).1]

theorem trustedItems_rebuild_self (hraws : history db target ≠ []) : target ∈ trustedItems db' ↔
    ∃ obs ∈ (replay db target).observations, obs.trustStatus = .trusted := by
  rw [mem_trustedItems, (rebuildItem_observations hwf h hraws).1]
  simp only [List.mem_map, exists_exists_and_eq_and, observationRow]

theorem reworkItems_rebuild_other {itemId : String} (hother : itemId ≠ target) :
    itemId ∈ reworkItems db' ↔ itemId ∈ reworkItems db := by
  have hrows : ownedBy (·.itemId) itemId db'.operationRuns = ownedBy (·.itemId) itemId db.operationRuns :=
    congrArg ProjectedRows.operationRuns (rebuildItem_rows_other hwf h hother)
  rw [mem_reworkItems, mem_reworkItems, hrows]

theorem reworkItems_rebuild_self (hraws : history db target ≠ []) : target ∈ reworkItems db' ↔
    ∃ run ∈ (replay db target).operations, run.runReason = .rework := by
  obtain ⟨runs, hruns, hrows⟩ := map_ok.mp (rebuildItem_rows hwf h hraws)
  have hown : runs = ownedBy (·.itemId) target db'.operationRuns := congrArg ProjectedRows.operationRuns hrows
  have hreasons := operationRunRows_reasons hruns
  rw [hown] at hreasons
  have hmem : ∀ reason, reason ∈ (ownedBy (·.itemId) target db'.operationRuns).map (·.runReason) ↔
      reason ∈ (replay db target).operations.map (·.runReason) := fun _ => by rw [hreasons]
  rw [mem_reworkItems]
  simpa only [List.mem_map] using hmem .rework

theorem findItem_isSome_rebuild_other {itemId : String} (hother : itemId ≠ target) :
    (findItem db' itemId).isSome = (findItem db itemId).isSome := by
  have hcolumns := congrArg Option.isSome (itemColumns_rebuild_other hwf h hother)
  simpa only [itemColumns, Option.isSome_map] using hcolumns

theorem findItem_isSome_rebuild_self : (findItem db' target).isSome = true ↔
    (findItem db target).isSome = true ∨ (replay db target).item.isSome = true := by
  rw [findItem_rebuild hwf h]
  cases (replay db target).item <;> simp

/-- A rebuild keeps the counts in step exactly when it finds what it has to. -/
theorem rebuildItem_accounted_iff (haccounted : Accounted db) (hraws : history db target ≠ []) :
    Accounted db' ↔ RebuildAccounts db target := by
  constructor
  · intro haccounted'
    constructor
    · intro hconfirmed
      rw [← confirmedItems_rebuild hwf h] at hconfirmed
      exact (trustedItems_rebuild_self hwf h hraws).mp (haccounted'.confirmed hconfirmed)
    · intro hrework
      have hcounted := (reworkItems_rebuild_self hwf h hraws).mpr hrework
      exact (findItem_isSome_rebuild_self hwf h).mp (haccounted'.reworked target hcounted)
  · intro haccounts
    constructor
    · rw [confirmedItems_rebuild hwf h]
      intro itemId hconfirmed
      by_cases hitem : itemId = target
      · subst hitem
        exact (trustedItems_rebuild_self hwf h hraws).mpr (haccounts.assessable hconfirmed)
      · exact (trustedItems_rebuild_other hwf h hitem).mpr (haccounted.confirmed hconfirmed)
    · intro itemId hrework
      by_cases hitem : itemId = target
      · subst hitem
        have hruns := (reworkItems_rebuild_self hwf h hraws).mp hrework
        exact (findItem_isSome_rebuild_self hwf h).mpr (haccounts.registered hruns)
      · rw [findItem_isSome_rebuild_other hwf h hitem]
        exact haccounted.reworked itemId ((reworkItems_rebuild_other hwf h hitem).mp hrework)

theorem rebuildItem_accounted (haccounted : Accounted db)
    (haccounts : history db target ≠ [] → RebuildAccounts db target) : Accounted db' := by
  by_cases hraws : history db target = []
  · rcases rebuildItem_cases h with ⟨-, rfl⟩ | ⟨hne, -⟩
    · exact haccounted.keepsCases rfl rfl rfl rfl
    · exact absurd hraws hne
  · exact (rebuildItem_accounted_iff hwf h haccounted hraws).mpr (haccounts hraws)

end Rebuild

/-! ## One call -/

/-- The rebuilds of a loop that complete find what they have to. -/
def LoopAccounts : Database → List String → Prop
  | _, [] => True
  | session, itemId :: rest => ∀ rebuilt, rebuildItem session itemId = .ok rebuilt →
      (history session itemId ≠ [] → RebuildAccounts session itemId) ∧ LoopAccounts rebuilt rest

/-- A nonconformance is confirmed only of an item with a trusted observation, and every rebuild finds what it
has to. -/
def CallAccounts (db : Database) : Call → Prop
  | .decide ncrId body userId now => ∀ committed, decideNonconformance db ncrId body userId now = .ok committed →
      body.verdict = .confirmed → ∀ ncr ∈ db.nonconformances, ncr.id = ncrId → ncr.itemId ∈ trustedItems db
  | .rebuild itemId => LoopAccounts db [itemId]
  | .invalidateDevice body userId => LoopAccounts (recorded db body userId) (affectedOf db body)
  | _ => True

theorem rebuildAll_accounted {committed session : Database} (hcommitted : Accounted committed)
    (hwf : WellFormed session) (hsession : Accounted session) {targets : List String}
    (h : LoopAccounts session targets) : Accounted (rebuildAll committed session targets).1 := by
  induction targets generalizing committed session with
  | nil => exact hsession
  | cons itemId rest ih =>
    rw [rebuildAll]
    cases hrebuild : rebuildItem session itemId with
    | error e => exact hcommitted
    | ok rebuilt =>
      obtain ⟨haccounts, hrest⟩ := h rebuilt hrebuild
      have hrebuilt := rebuildItem_accounted hwf hrebuild hsession haccounts
      exact ih hrebuilt (rebuildItem_wellFormed hwf hrebuild) hrebuilt hrest

theorem confirmedItems_release {db : Database} {ncr : Nonconformance} {decision : ControllerDecision} {now : Instant}
    {allowed : List String} (hold : confirmedItems db ⊆ allowed)
    (hnew : ncr.verdict = .confirmed → ncr.itemId ∈ allowed) :
    confirmedItems (release db ncr decision now) ⊆ allowed := by
  have hclosed : confirmedItems (saveNcr db { ncr with closedAt := some now }) ⊆ allowed :=
    confirmedItems_saveNcr hold hnew
  exact hclosed

theorem applyDecision_counts (body : DecisionRequest) (ncr : Nonconformance) :
    (applyDecision body ncr).verdict = body.verdict ∧ (applyDecision body ncr).itemId = ncr.itemId := by
  unfold applyDecision
  split <;> exact ⟨rfl, rfl⟩

/-- Only a decision confirms a nonconformance, and then of an item with a trusted observation. -/
theorem confirmedItems_exec {db : Database} (hs : Sound db) (h : Accounted db) {call : Call}
    (hcall : CallAccounts db call) : confirmedItems (exec db call).1 ⊆ trustedItems db := by
  have hown : ∀ ncr ∈ db.nonconformances, ncr.verdict = .confirmed → ncr.itemId ∈ trustedItems db :=
    fun ncr hncr hconfirmed => h.confirmed (mem_confirmedItems hncr hconfirmed)
  have hkept : ∀ {m : Database}, m.nonconformances = db.nonconformances → confirmedItems m ⊆ trustedItems db := by
    intro m hncrs
    rw [confirmedItems, hncrs]
    exact h.confirmed
  cases call with
  | ingest event receivedAt =>
    simp only [exec]
    cases hingest : ingestEvent db event receivedAt with
    | error e => exact h.confirmed
    | ok result => exact hkept (ingest_quiet hingest).nonconformances
  | rebuild itemId =>
    simp only [exec, rebuildOrMark]
    cases hrebuild : rebuildItem db itemId with
    | error e => exact hkept rfl
    | ok rebuilt => exact confirmedItems_rebuild hs.toWellFormed hrebuild ▸ h.confirmed
  | invalidateDevice body userId =>
    refine (rebuildAll_invariant (P := fun m => WellFormed m ∧ confirmedItems m ⊆ trustedItems db) ?_ ?_ ?_ _).2
    · rintro m n itemId ⟨hm, hconfirmed⟩ hn
      exact ⟨rebuildItem_wellFormed hm hn, confirmedItems_rebuild hm hn ▸ hconfirmed⟩
    · exact ⟨hs.toWellFormed, h.confirmed⟩
    · exact ⟨wellFormed_congr hs.toWellFormed rfl rfl rfl le_rfl, h.confirmed⟩
  | review ncrId body =>
    simp only [exec, withUnit]
    cases hreview : reviewNonconformance db ncrId body with
    | error e => exact h.confirmed
    | ok committed =>
      obtain ⟨ncr, -, -, rfl⟩ := reviewNonconformance_ok hreview
      refine confirmedItems_saveNcr h.confirmed fun hconfirmed => ?_
      rcases body.allowed with hpending | hextra
      · rw [hpending] at hconfirmed
        cases hconfirmed
      · rw [hextra] at hconfirmed
        cases hconfirmed
  | decide ncrId body userId now =>
    simp only [exec]
    cases hdecide : decideNonconformance db ncrId body userId now with
    | error e => exact h.confirmed
    | ok result =>
      obtain ⟨committed, answer⟩ := result
      obtain ⟨ncr, hncr, hid, -, hwrites⟩ := decideNonconformance_ok hs.results_fresh hdecide
      obtain ⟨hverdict, hitem⟩ := applyDecision_counts body ncr
      have hnew : (applyDecision body ncr).verdict = .confirmed →
          (applyDecision body ncr).itemId ∈ trustedItems db := by
        rw [hverdict, hitem]
        exact fun hconfirmed => hcall _ hdecide hconfirmed ncr hncr hid
      rcases hwrites with ⟨-, rfl⟩ | ⟨-, -, rfl⟩
      · refine confirmedItems_saveNcr ?_ hnew
        exact h.confirmed
      · refine confirmedItems_release ?_ hnew
        exact h.confirmed
  | verifyRework ncrId body userId now =>
    simp only [exec]
    cases hverify : verifyRework db ncrId body userId now with
    | error e => exact h.confirmed
    | ok result =>
      obtain ⟨committed, answer⟩ := result
      obtain ⟨ncr, _, hncr, -, ⟨-, -, -, rfl⟩ | ⟨-, -, rfl⟩⟩ := verifyRework_ok hs.results_fresh hverify
      · refine confirmedItems_release ?_ (hown ncr (ncrOr404_ok hncr).1)
        exact h.confirmed
      · refine confirmedItems_saveNcr ?_ (hown ncr (ncrOr404_ok hncr).1)
        exact h.confirmed
  | requestInspection ncrId body userId now =>
    simp only [exec]
    cases hinspect : requestInspection db ncrId body userId now with
    | error e => exact h.confirmed
    | ok result =>
      obtain ⟨committed, answer⟩ := result
      obtain ⟨ncr, -, -, rfl⟩ := requestInspection_ok hinspect
      refine confirmedItems_saveNcr ?_ fun hconfirmed => ?_
      · exact h.confirmed
      · cases hconfirmed
  | proposeContainment ncrId body userId =>
    simp only [exec]
    cases hpropose : proposeContainment db ncrId body userId with
    | error e => exact h.confirmed
    | ok result =>
      obtain ⟨committed, answer⟩ := result
      obtain ⟨proposals, rfl⟩ := proposeContainment_ok hpropose
      exact hkept rfl
  | reviewContainment proposalId body userId now =>
    simp only [exec, withUnit]
    cases hreview : reviewContainment db proposalId body userId now with
    | error e => exact h.confirmed
    | ok committed =>
      obtain ⟨proposals, rfl | ⟨ncr, hncr, containment, rfl⟩⟩ := reviewContainment_ok hreview
      · exact hkept rfl
      · refine confirmedItems_saveNcr ?_ (hown ncr hncr)
        exact h.confirmed
  | configure config => exact hkept rfl
  | verifyIntegrity failed => exact hkept rfl

theorem exec_accounted {db : Database} (hs : Sound db) (h : Accounted db) {call : Call}
    (hcall : CallAccounts db call) : Accounted (exec db call).1 := by
  have hconfirmed := confirmedItems_exec hs h hcall
  cases exec_frame hs call with
  | ingested event receivedAt result _ hingest =>
    rcases ingestEvent_cases hingest with ⟨_, -, -, heq, -⟩ | ⟨-, -, hout, -, -⟩
    · rw [heq]
      exact h
    · exact h.keeps (congrArg Database.observations hout :) (congrArg Database.operationRuns hout :)
        (congrArg (fun m : Database => m.items.map (·.itemId)) hout :) hconfirmed
  | rebuilt itemId hcallIs hrebuild =>
    rw [hcallIs] at hcall
    exact rebuildItem_accounted hs.toWellFormed hrebuild h (hcall _ hrebuild).1
  | failed itemId error _ _ hmarked =>
    rw [hmarked]
    exact h.keepsCases rfl rfl rfl rfl
  | invalidated body userId hcallIs heq =>
    rw [hcallIs] at hcall
    have hwf : WellFormed (recorded db body userId) :=
      wellFormed_congr hs.toWellFormed rfl rfl rfl le_rfl
    rw [heq]
    exact rebuildAll_accounted h hwf (h.keepsCases rfl rfl rfl rfl) hcall
  | configured config _ heq =>
    rw [heq]
    exact h.keepsCases rfl rfl rfl rfl
  | other hsame =>
    have hids : ∀ items : List Item, items.map (·.itemId) = (items.map undecided).map (·.itemId) := by
      intro items
      rw [List.map_map]
      rfl
    have hcolumn := congrArg (List.map (·.itemId)) hsame.items
    rw [← hids, ← hids] at hcolumn
    exact h.keeps hsame.observations hsame.operationRuns hcolumn hconfirmed

/-! ## Every run -/

/-- From tables that are accounted for, such as empty ones: as long as no item is confirmed, or stays confirmed,
without a trusted observation, and no item is reworked without a registration, both rates are proportions in every
state. -/
theorem kpi_rates_proportions {db : Database} (hs : Sound db) (haccounted : Accounted db) {calls : List Call}
    (hmeets : Machine.Meets exec CallAccounts db calls) (front rest : List Call) (hcalls : calls = front ++ rest)
    (calculatedAt : Instant) :
    IsProportion (qualityKpi (run db front) calculatedAt).firstPassYield ∧
      IsProportion (qualityKpi (run db front) calculatedAt).reworkItemRate := by
  subst hcalls
  have hgood : Sound (run db front) ∧ Accounted (run db front) := by
    refine Machine.meets_invariant (C := CallAccounts) (P := fun m => Sound m ∧ Accounted m) ?_
      ⟨hs, haccounted⟩ (Machine.meets_append.mp hmeets).1
    rintro m call ⟨hs, haccounted⟩ hcall
    exact ⟨exec_sound hs call, exec_accounted hs haccounted hcall⟩
  exact hgood.2.rates calculatedAt

/-- Empty tables are accounted for. -/
example (config : Configuration) : Accounted { config := config } := by
  constructor <;> simp [confirmedItems, reworkItems]

instance (db : Database) (itemId : String) : Decidable (RebuildAccounts db itemId) :=
  decidable_of_iff ((itemId ∈ confirmedItems db →
      ∃ obs ∈ (replay db itemId).observations, obs.trustStatus = .trusted) ∧
    ((∃ run ∈ (replay db itemId).operations, run.runReason = .rework) →
      (findItem db itemId).isSome = true ∨ (replay db itemId).item.isSome = true))
    ⟨fun h => ⟨h.1, h.2⟩, fun h => ⟨h.assessable, h.registered⟩⟩

theorem loopAccounts_one {db : Database} {itemId : String} (h : RebuildAccounts db itemId) :
    LoopAccounts db [itemId] := fun _ _ => ⟨fun _ => h, trivial⟩

/-- Tables with a registered item and the nonconformance of a trusted scratch. -/
def registeredScratch : List Call :=
  [.rebuild "item-1", .ingest registered 2, .ingest (scratchSeen "e-1" 10) 11, .rebuild "item-1"]

theorem registeredScratch_sound : Sound (shipped (run parentsFirst registeredScratch)) := by
  have hreachable : Reachable (run parentsFirst registeredScratch) :=
    ⟨_, registeredScratch, initial_parentsFirst, rfl⟩
  exact sound_shipped (reachable_sound hreachable)

theorem registeredScratch_accounted : Accounted (shipped (run parentsFirst registeredScratch)) := by
  have hconfirmed : ∀ itemId ∈ confirmedItems (shipped (run parentsFirst registeredScratch)),
      itemId ∈ trustedItems (shipped (run parentsFirst registeredScratch)) := by decide +kernel
  exact ⟨hconfirmed, by decide +kernel⟩

/-- The scratch is confirmed, and another item is registered, inspected and reworked. -/
def reworkedInTurn : List Call :=
  [.decide 1 reworkIt 100 20, .rebuild "item-2",
    .ingest { registered with eventId := "e-2", itemId := some "item-2" } 22,
    .ingest { goodSeen "e-3" 30 with itemId := some "item-2" } 31,
    .ingest { reworkStarted with eventId := "e-4", itemId := some "item-2" } 32, .rebuild "item-2"]

theorem kpi_rates_proportions_reworked :
    IsProportion (qualityKpi (run (shipped (run parentsFirst registeredScratch)) reworkedInTurn) 50).firstPassYield ∧
      IsProportion
        (qualityKpi (run (shipped (run parentsFirst registeredScratch)) reworkedInTurn) 50).reworkItemRate := by
  have hmeets : Machine.Meets exec CallAccounts (shipped (run parentsFirst registeredScratch)) reworkedInTurn := by
    refine ⟨?_, loopAccounts_one ?_, trivial, trivial, trivial, loopAccounts_one ?_, trivial⟩
    · intro committed _ _
      decide +kernel
    · decide +kernel
    · decide +kernel
  exact kpi_rates_proportions registeredScratch_sound registeredScratch_accounted hmeets reworkedInTurn [] (by simp)
    50

/-! ### Items counted on one side only -/

/-- One registered item beside two reworked ones that are not. -/
def unregisteredRework : List Call :=
  [.rebuild "item-1", .rebuild "item-2", .rebuild "item-3", .ingest registered 2,
    .ingest { reworkStarted with eventId := "e-4", itemId := some "item-2", operationRunId := some "run-2" } 31,
    .ingest { reworkStarted with eventId := "e-5", itemId := some "item-3", operationRunId := some "run-3" } 32,
    .rebuild "item-1", .rebuild "item-2", .rebuild "item-3"]

/-- A rework rate of two. -/
theorem rates_out_of_range : ¬ ∀ db calculatedAt, Reachable db → db.insertOrder = .byClassName →
    IsProportion (qualityKpi db calculatedAt).firstPassYield ∧
      IsProportion (qualityKpi db calculatedAt).reworkItemRate := by
  have hrework : (qualityKpi (run {} unregisteredRework) 50).reworkItemRate = some 2 := by decide +kernel
  intro h
  have hproportion := (h (run {} unregisteredRework) 50 ⟨{}, unregisteredRework, ⟨{}, _, rfl⟩, rfl⟩
    (by decide +kernel)).2 2 hrework
  exact absurd hproportion.2 (by norm_num)

/-- Two nonconformances of items without a trusted observation are confirmed beside an item with one: a yield of
minus one. -/
example : (qualityKpi (run (shipped (run parentsFirst
    [.rebuild "item-1", .rebuild "item-2", .rebuild "item-3", .ingest blurredDent 11,
      .ingest { blurredDent with eventId := "e-4", itemId := some "item-2" } 12,
      .ingest { goodSeen "e-3" 10 with itemId := some "item-3" } 13, .rebuild "item-1", .rebuild "item-2",
      .rebuild "item-3"])) [.decide 1 useAsIs 100 20, .decide 3 useAsIs 100 21]) 50).firstPassYield = some (-1) := by
  decide +kernel

end TraceQ.Properties
