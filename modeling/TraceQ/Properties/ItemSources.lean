import TraceQ.Backend.RebuildViews
import TraceQ.Backend.Sources

/-! # The sources of the `Item` row

A rebuild writes the product, the revision and the line of the last registration in business order. The time of
registration is written with the row, by the first rebuild, and never again.
-/
namespace TraceQ.Properties
open Projections Ingestion Api Quality Tables Results Backend
set_option autoImplicit false
set_option maxHeartbeats 250000

/-! ## Registrations -/

/-- The accepted registrations of the item, in the order in which they were accepted. -/
def registrations (db : Database) (itemId : String) : List RawEvent :=
  (storedEvents db itemId).filter fun raw => (registrationOf raw).isSome

/-- The last registration of the item in business order. -/
def IsLast (db : Database) (itemId : String) (last : RawEvent) : Prop :=
  last ∈ registrations db itemId ∧ ∀ other ∈ registrations db itemId, businessKey other ≤ businessKey last

/-- The replay ends with the last registration. -/
theorem replay_item {db : Database} {itemId : String} {value : ItemValue}
    (h : (replay db itemId).item = some value) :
    ∃ last, IsLast db itemId last ∧ registrationOf last = some value := by
  rw [replay_item_eq, getLast?_filterMap_of_isSome (p := fun raw => (registrationOf raw).isSome) fun _ _ => rfl] at h
  obtain ⟨last, hlast, hvalue⟩ := Option.bind_eq_some_iff.mp h
  obtain ⟨front, hfront⟩ := List.getLast?_eq_some_iff.mp hlast
  have hmem : ∀ raw, raw ∈ registrations db itemId ↔ raw ∈ front ++ [last] := by
    intro raw
    rw [← hfront, registrations, List.mem_filter, List.mem_filter, mem_history]
  have hsorted : (front ++ [last]).Pairwise fun a b => businessKey a ≤ businessKey b := by
    rw [← hfront]
    exact (List.pairwise_insertionSort _ _).filter _
  refine ⟨last, ⟨(hmem last).mpr (by simp), fun other hother => ?_⟩, hvalue⟩
  rcases List.mem_append.mp ((hmem other).mp hother) with hfront | hlast
  · exact (List.pairwise_append.mp hsorted).2.2 other hfront last List.mem_cons_self
  · rw [List.mem_singleton.mp hlast]

theorem replay_item_none {db : Database} {itemId : String} :
    (replay db itemId).item = none ↔ registrations db itemId = [] := by
  rw [replay_item_eq, List.getLast?_eq_none_iff, List.filterMap_eq_nil_iff, registrations, List.filter_eq_nil_iff]
  simp only [mem_history, Option.not_isSome_iff_eq_none]

/-! ## The row -/

/-- The columns a registration reports. -/
structure SourceColumns where
  productDefinitionId : String
  revision : String
  lineId : Option String
  registeredAt : Instant
deriving DecidableEq

def sourceColumns (item : Item) : SourceColumns where
  productDefinitionId := item.productDefinitionId
  revision := item.revision
  lineId := item.lineId
  registeredAt := item.registeredAt

def reportedColumns (value : ItemValue) : SourceColumns where
  productDefinitionId := value.payload.productDefinitionId
  revision := value.payload.revision
  lineId := value.payload.lineId
  registeredAt := value.registeredAt

/-- The columns of the row of the item, if there is one. -/
def itemColumns (db : Database) (itemId : String) : Option SourceColumns :=
  (findItem db itemId).map sourceColumns

/-- The row has the details of the last registration and the time of the first accepted one. -/
structure RowFrom (db : Database) (itemId : String) : Prop where
  absent : registrations db itemId = [] → itemColumns db itemId = none
  present : ∀ first rest, registrations db itemId = first :: rest →
    ∃ last value, IsLast db itemId last ∧ registrationOf last = some value ∧
      itemColumns db itemId = some { reportedColumns value with registeredAt := first.occurredAt }

theorem RowFrom.congr {db db' : Database} {itemId : String} (h : RowFrom db itemId)
    (hregistrations : registrations db' itemId = registrations db itemId)
    (hitem : itemColumns db' itemId = itemColumns db itemId) : RowFrom db' itemId := by
  refine ⟨fun hnone => hitem ▸ h.absent (hregistrations ▸ hnone), fun first rest hsome => ?_⟩
  rw [hitem]
  obtain ⟨last, value, ⟨hmem, hle⟩, hlast⟩ := h.present first rest (hregistrations ▸ hsome)
  exact ⟨last, value, ⟨hregistrations ▸ hmem, hregistrations ▸ hle⟩, hlast⟩

section Rebuild
variable {db db' : Database} (hwf : WellFormed db) {itemId : String} (h : rebuildItem db itemId = .ok db')
include hwf h

theorem itemColumns_rebuild_other {other : String} (hother : other ≠ itemId) :
    itemColumns db' other = itemColumns db other := by
  by_cases hraws : history db itemId = []
  · rcases rebuildItem_cases h with ⟨-, rfl⟩ | ⟨hne, -⟩
    · rfl
    · exact absurd hraws hne
  · obtain ⟨stored, hstored, -, hitems⟩ := rebuildItem_stores hwf h hraws
    obtain ⟨runs, -, hdb⟩ := storeProjection_ok hstored
    have hprojected := findItem_projectItem_other stored hother (replay db itemId).item
    have hfound : findItem stored other = findItem db other := by rw [findItem, findItem, hdb]
    rw [itemColumns, itemColumns, ← hfound, ← hprojected, findItem, findItem, hitems]

theorem registrations_rebuild (other : String) : registrations db' other = registrations db other := by
  rw [registrations, storedEvents, rebuildItem_rawEvents hwf h]
  rfl

theorem isLast_rebuild {other : String} {last : RawEvent} : IsLast db' other last ↔ IsLast db other last := by
  rw [IsLast, IsLast, registrations_rebuild hwf h]

theorem findItem_rebuild : findItem db' itemId =
    (replay db itemId).item.elim (findItem db itemId) fun value =>
      some (((findItem db itemId).map (registerItem value)).getD (newItem db.config itemId value)) := by
  by_cases hraws : history db itemId = []
  · rcases rebuildItem_cases h with ⟨-, rfl⟩ | ⟨hne, -⟩
    · rw [replay_of_no_history hraws]
      rfl
    · exact absurd hraws hne
  · obtain ⟨stored, hstored, -, hitems⟩ := rebuildItem_stores hwf h hraws
    obtain ⟨runs, -, hdb⟩ := storeProjection_ok hstored
    have hfound : findItem stored itemId = findItem db itemId := by rw [findItem, findItem, hdb]
    have hconfig : stored.config = db.config := by rw [hdb]
    have hprojected := findItem_projectItem stored itemId (replay db itemId).item
    rw [hfound, hconfig] at hprojected
    rw [← hprojected, findItem, findItem, hitems]

/-- A rebuild with a registration leaves the details of the last one; the time stays, if there is a row. -/
theorem rowFrom_rebuilt {first : RawEvent} {rest : List RawEvent}
    (hregistrations : registrations db itemId = first :: rest)
    (htime : ∀ row, findItem db itemId = some row → row.registeredAt = first.occurredAt)
    (hnew : findItem db itemId = none → rest = []) : RowFrom db' itemId := by
  cases hitem : (replay db itemId).item with
  | none =>
    rw [replay_item_none.mp hitem] at hregistrations
    cases hregistrations
  | some value =>
    obtain ⟨last, hlast, hvalue⟩ := replay_item hitem
    have hfind := findItem_rebuild hwf h
    rw [hitem, Option.elim_some] at hfind
    refine ⟨fun hnone => ?_, fun first' rest' hsome => ?_⟩
    · rw [registrations_rebuild hwf h, hregistrations] at hnone
      cases hnone
    · rw [registrations_rebuild hwf h, hregistrations] at hsome
      obtain ⟨rfl, rfl⟩ := List.cons.inj hsome
      refine ⟨last, value, (isLast_rebuild hwf h).mpr hlast, hvalue, ?_⟩
      rw [itemColumns, hfind]
      cases hrow : findItem db itemId with
      | some row =>
        simp [registerItem, sourceColumns, reportedColumns, htime row hrow]
      | none =>
        -- the first rebuild has one registration to read
        have honly : last = first := by
          have hmem := hlast.1
          rw [hregistrations, hnew hrow] at hmem
          exact List.mem_singleton.mp hmem
        have hregisteredAt : value.registeredAt = first.occurredAt := by
          rw [← honly]
          revert hvalue
          unfold registrationOf
          cases last.payload <;> simp
          rintro rfl
          rfl
        simp [newItem, sourceColumns, reportedColumns, hregisteredAt]

theorem rowFrom_rebuild_self (hrow : RowFrom db itemId) : RowFrom db' itemId := by
  cases hregistrations : registrations db itemId with
  | nil =>
    refine hrow.congr (registrations_rebuild hwf h itemId) ?_
    rw [itemColumns, findItem_rebuild hwf h, replay_item_none.mpr hregistrations, Option.elim_none,
      itemColumns]
  | cons first rest =>
    obtain ⟨_, _, -, -, hcolumns⟩ := hrow.present first rest hregistrations
    rw [itemColumns] at hcolumns
    refine rowFrom_rebuilt hwf h hregistrations (fun row hfound => ?_) fun hnone => ?_
    · rw [hfound, Option.map_some, Option.some.injEq] at hcolumns
      exact (congrArg SourceColumns.registeredAt hcolumns :)
    · rw [hnone] at hcolumns
      cases hcolumns

theorem RowFrom.rebuild {other : String} (hrow : RowFrom db other) : RowFrom db' other := by
  by_cases hother : other = itemId
  · subst hother
    exact rowFrom_rebuild_self hwf h hrow
  · exact hrow.congr (registrations_rebuild hwf h other) (itemColumns_rebuild_other hwf h hother)

end Rebuild

/-! ## Runs -/

/-- The states of runs in which a rebuild of the item follows each of its registrations and completes. -/
inductive RegisteredInTurn (itemId : String) : Database → Prop where
  | initial (config : Configuration) (order : InsertOrder) :
      RegisteredInTurn itemId { config := config, insertOrder := order }
  | registered {db stored db' : Database} (h : RegisteredInTurn itemId db) (event : EventEnvelope)
      (receivedAt : Instant) (result : IngestionResult) (payload : ItemRegisteredPayload)
      (hitem : event.itemId = some itemId) (hpayload : event.payload = .itemRegistered payload)
      (hingest : ingestEvent db event receivedAt = .ok (stored, result))
      (hrebuild : rebuildItem stored itemId = .ok db') : RegisteredInTurn itemId db'
  /-- Any call that stores no registration of the item. -/
  | other {db : Database} (h : RegisteredInTurn itemId db) (call : Call)
      (hkept : registrations (exec db call).1 itemId = registrations db itemId) :
      RegisteredInTurn itemId (exec db call).1

theorem RegisteredInTurn.reachable {itemId : String} {db : Database} (h : RegisteredInTurn itemId db) :
    Reachable db := by
  induction h with
  | initial config order => exact ⟨_, [], ⟨config, order, rfl⟩, rfl⟩
  | registered _ event receivedAt _ _ _ _ hingest hrebuild ih =>
    have hstored := reachable_exec ih (.ingest event receivedAt)
    simp only [exec, hingest, commit] at hstored
    exact reachable_rebuild hstored hrebuild
  | other _ call _ ih => exact reachable_exec ih call

/-- Apart from its rebuilds, nothing writes the columns. -/
theorem rowFrom_other {db : Database} {itemId : String} (hs : Sound db) (h : RowFrom db itemId) (call : Call)
    (hkept : registrations (exec db call).1 itemId = registrations db itemId) :
    RowFrom (exec db call).1 itemId := by
  cases exec_frame hs call with
  | ingested event receivedAt result _ hingest =>
    refine h.congr hkept ?_
    rcases ingestEvent_cases hingest with ⟨_, -, -, heq, -⟩ | ⟨-, -, hout, -, -⟩
    · rw [heq]
    · have hitems : (exec db call).1.items = db.items := (congrArg Database.items hout :)
      rw [itemColumns, itemColumns, findItem, findItem, hitems]
  | rebuilt target _ hrebuild => exact h.rebuild hs.toWellFormed hrebuild
  | failed target error _ _ hmarked =>
    refine h.congr hkept ?_
    rw [hmarked]
    rfl
  | invalidated body userId _ heq =>
    rw [heq]
    have hboth : WellFormed (invalidateDevice db body userId).1 ∧
        RowFrom (invalidateDevice db body userId).1 itemId := by
      refine rebuildAll_invariant (P := fun m => WellFormed m ∧ RowFrom m itemId) ?_ ?_ ?_ _
      · exact fun m n target hm hn => ⟨rebuildItem_wellFormed hm.1 hn, hm.2.rebuild hm.1 hn⟩
      · exact ⟨hs.toWellFormed, h⟩
      · exact ⟨wellFormed_congr hs.toWellFormed rfl rfl rfl le_rfl, h.congr rfl rfl⟩
    exact hboth.2
  | configured config _ heq =>
    rw [heq]
    exact h.congr rfl rfl
  | other hsame =>
    refine h.congr hkept ?_
    have hcolumns : ∀ m : Database, itemColumns m itemId =
        ((m.items.map undecided).find? fun item => decide (item.itemId = itemId)).map sourceColumns := by
      intro m
      rw [List.find?_map, Option.map_map]
      rfl
    rw [hcolumns, hcolumns, hsame.items]

/-- After an accepted registration and the rebuild that follows. -/
theorem rowFrom_registered {db stored db' : Database} {itemId : String} (hs : Sound db)
    (h : RowFrom db itemId) {event : EventEnvelope} {receivedAt : Instant} {result : IngestionResult}
    {payload : ItemRegisteredPayload} (hitem : event.itemId = some itemId)
    (hpayload : event.payload = .itemRegistered payload)
    (hingest : ingestEvent db event receivedAt = .ok (stored, result))
    (hrebuild : rebuildItem stored itemId = .ok db') : RowFrom db' itemId := by
  have hcommitted : (exec db (.ingest event receivedAt)).1 = stored := by
    simp only [exec, hingest, commit]
  have hwf : WellFormed stored := hcommitted ▸ (exec_sound hs _).toWellFormed
  rcases ingestEvent_cases hingest with ⟨_, -, -, rfl, -⟩ | ⟨-, -, hout, ⟨raw, rfl, -, hraws⟩, -⟩
  · exact h.rebuild hwf hrebuild
  · have hregistered : (registrationOf raw).isSome = true := by
      simp only [registrationOf, hpayload, Option.isSome_some]
    have hregistrations : registrations stored itemId = registrations db itemId ++ [raw] := by
      rw [registrations, storedEvents, hraws, List.filter_append, List.filter_append]
      simp [registrations, storedEvents, hitem, hregistered]
    have hfound : findItem stored itemId = findItem db itemId := by
      have hitems : stored.items = db.items := (congrArg Database.items hout :)
      rw [findItem, findItem, hitems]
    cases hbefore : registrations db itemId with
    | nil =>
      have hnone : findItem stored itemId = none := by
        rw [hfound, ← Option.map_eq_none_iff (f := sourceColumns)]
        exact h.absent hbefore
      rw [hbefore] at hregistrations
      exact rowFrom_rebuilt hwf hrebuild hregistrations (fun row hrow => absurd hrow (by simp [hnone]))
        fun _ => rfl
    | cons first rest =>
      obtain ⟨_, _, -, -, hcolumns⟩ := h.present first rest hbefore
      rw [hbefore, List.cons_append] at hregistrations
      rw [itemColumns, ← hfound] at hcolumns
      refine rowFrom_rebuilt hwf hrebuild hregistrations (fun row hrow => ?_) fun hnone => ?_
      · rw [hrow, Option.map_some, Option.some.injEq] at hcolumns
        exact (congrArg SourceColumns.registeredAt hcolumns :)
      · rw [hnone] at hcolumns
        cases hcolumns

theorem RegisteredInTurn.rowFrom {itemId : String} {db : Database} (h : RegisteredInTurn itemId db) :
    RowFrom db itemId := by
  induction h with
  | initial config order => exact ⟨fun _ => rfl, fun _ _ hsome => by simp [registrations, storedEvents] at hsome⟩
  | registered h _ _ _ _ hitem hpayload hingest hrebuild ih =>
    exact rowFrom_registered (reachable_sound h.reachable) ih hitem hpayload hingest hrebuild
  | other h call hkept ih => exact rowFrom_other (reachable_sound h.reachable) ih call hkept

/-- The last registration is one event. -/
theorem isLast_unique {db : Database} (hdb : Reachable db) {itemId : String} {last last' : RawEvent}
    (h : IsLast db itemId last) (h' : IsLast db itemId last') : last = last' := by
  have hkey := le_antisymm (h'.2 last h.1) (h.2 last' h'.1)
  refine eq_of_nodup_map (reachable_sources hdb).event_ids ?_ ?_ ?_
  · exact List.mem_of_mem_filter (List.mem_of_mem_filter h.1)
  · exact List.mem_of_mem_filter (List.mem_of_mem_filter h'.1)
  · exact (congrArg (fun key => (ofLex (ofLex (ofLex (ofLex key).2).2).2).2) hkey :)

theorem occurredAt_le_of_isLast {db : Database} {itemId : String} {last other : RawEvent}
    (h : IsLast db itemId last) (hother : other ∈ registrations db itemId) :
    other.occurredAt ≤ last.occurredAt := by
  have hkey := h.2 other hother
  simp only [businessKey, Prod.Lex.toLex_le_toLex] at hkey
  rcases hkey with hlt | ⟨heq, -⟩
  · exact hlt.le
  · exact heq.le

/-- The row comes from the last registration alone exactly as long as no registration is later than the one
that was accepted first. -/
theorem item_sources_iff {db : Database} {itemId : String} (h : RegisteredInTurn itemId db) :
    (∀ last, IsLast db itemId last → itemColumns db itemId = (registrationOf last).map reportedColumns) ↔
    ∀ first ∈ (registrations db itemId).head?, ∀ raw ∈ registrations db itemId,
      raw.occurredAt ≤ first.occurredAt := by
  cases hregistrations : registrations db itemId with
  | nil =>
    refine iff_of_true (fun last hlast => ?_) fun _ hfirst => by simp at hfirst
    rw [IsLast, hregistrations] at hlast
    exact absurd hlast.1 List.not_mem_nil
  | cons first rest =>
    obtain ⟨last, value, hlast, hvalue, hcolumns⟩ := h.rowFrom.present first rest hregistrations
    have htime : value.registeredAt = last.occurredAt := by
      revert hvalue
      unfold registrationOf
      cases last.payload <;> simp
      rintro rfl
      rfl
    have hfirst : first ∈ registrations db itemId := hregistrations ▸ List.mem_cons_self
    simp only [List.head?_cons, Option.mem_def, Option.some.injEq, forall_eq']
    rw [← hregistrations]
    constructor
    · intro hsame raw hraw
      have hrow := hsame last hlast
      rw [hcolumns, hvalue, Option.map_some, Option.some.injEq] at hrow
      have htimes : first.occurredAt = value.registeredAt := (congrArg SourceColumns.registeredAt hrow :)
      rw [htimes, htime]
      exact occurredAt_le_of_isLast hlast hraw
    · intro hnone last' hlast'
      obtain rfl := isLast_unique h.reachable hlast hlast'
      have htimes : first.occurredAt = value.registeredAt :=
        htime ▸ le_antisymm (occurredAt_le_of_isLast hlast hfirst) (hnone last hlast.1)
      rw [hcolumns, hvalue, htimes]
      rfl

/-! ### A corrected registration -/

def registeredAs (eventId revision : String) (time : Instant) : EventEnvelope where
  eventId := eventId
  occurredAt := time
  source := { sourceId := "mes-1", sourceType := "mes" }
  itemId := some "item-1"
  payload := .itemRegistered { productDefinitionId := "shaft", revision := revision }
  item_required := fun _ => by decide
  run_required := nofun

/-- Revision A is registered at 10, revision B at `time`; the item is rebuilt after each. -/
def registeredTwice (time : Instant) : List Call :=
  [.rebuild "item-1", .ingest (registeredAs "e-1" "A" 10) 11, .rebuild "item-1",
    .ingest (registeredAs "e-2" "B" time) 21, .rebuild "item-1"]

theorem ingest_ok_of_exec {db : Database} {event : EventEnvelope} {receivedAt : Instant}
    (h : (ingestEvent db event receivedAt).isOk = true) :
    ∃ result, ingestEvent db event receivedAt = .ok ((exec db (.ingest event receivedAt)).1, result) := by
  simp only [exec]
  cases hingest : ingestEvent db event receivedAt with
  | ok committed => exact ⟨committed.2, rfl⟩
  | error e =>
    rw [hingest] at h
    cases h

theorem registeredInTurn_step {db : Database} (h : RegisteredInTurn "item-1" db) {eventId revision : String}
    {time receivedAt : Instant}
    (hingest : (ingestEvent db (registeredAs eventId revision time) receivedAt).isOk)
    (hrebuild : (rebuildItem
      (exec db (.ingest (registeredAs eventId revision time) receivedAt)).1 "item-1").isOk) :
    RegisteredInTurn "item-1" (exec (exec db (.ingest (registeredAs eventId revision time) receivedAt)).1
      (.rebuild "item-1")).1 := by
  obtain ⟨result, hresult⟩ := ingest_ok_of_exec hingest
  exact .registered h _ _ _ _ rfl rfl hresult (rebuildItem_rebuildOrMark hrebuild)

theorem registeredTwice_inTurn {time : Instant} (h : time = 5 ∨ time = 20) :
    RegisteredInTurn "item-1" (run {} (registeredTwice time)) := by
  have hstart : RegisteredInTurn "item-1" (exec {} (.rebuild "item-1")).1 := .other (.initial {} _) _ rfl
  have hfirst : RegisteredInTurn "item-1" (run {} [.rebuild "item-1",
      .ingest (registeredAs "e-1" "A" 10) 11, .rebuild "item-1"]) :=
    registeredInTurn_step hstart (by decide +kernel) (by decide +kernel)
  rcases h with rfl | rfl
  · exact registeredInTurn_step hfirst (by decide +kernel) (by decide +kernel)
  · exact registeredInTurn_step hfirst (by decide +kernel) (by decide +kernel)

/-- The correction is dated before the first registration, so the first stays the last one. -/
theorem item_sources_earlier : itemColumns (run {} (registeredTwice 5)) "item-1" =
    some ⟨"shaft", "A", none, 10⟩ := by
  obtain ⟨last, hmem, hlatest, hreported⟩ : ∃ last ∈ registrations (run {} (registeredTwice 5)) "item-1",
      (∀ other ∈ registrations (run {} (registeredTwice 5)) "item-1", businessKey other ≤ businessKey last) ∧
      (registrationOf last).map reportedColumns = some ⟨"shaft", "A", none, 10⟩ := by
    decide +kernel
  have hlast := (item_sources_iff (registeredTwice_inTurn (.inl rfl))).mpr (by decide +kernel) last
    ⟨hmem, hlatest⟩
  rw [hlast, hreported]

/-- A later registration leaves its details beside the time of the first. -/
theorem item_sources_mixed : ¬ ∀ (db : Database) (itemId : String), RegisteredInTurn itemId db →
    ∀ last, IsLast db itemId last → itemColumns db itemId = (registrationOf last).map reportedColumns := by
  intro h
  have hcolumns : itemColumns (run {} (registeredTwice 20)) "item-1" = some ⟨"shaft", "B", none, 10⟩ := by
    decide +kernel
  obtain ⟨last, hmem, hlatest, hreported⟩ : ∃ last ∈ registrations (run {} (registeredTwice 20)) "item-1",
      (∀ other ∈ registrations (run {} (registeredTwice 20)) "item-1", businessKey other ≤ businessKey last) ∧
      (registrationOf last).map reportedColumns = some ⟨"shaft", "B", none, 20⟩ := by
    decide +kernel
  have hsame := h _ _ (registeredTwice_inTurn (.inr rfl)) last ⟨hmem, hlatest⟩
  rw [hcolumns, hreported] at hsame
  cases hsame

end TraceQ.Properties
