import TraceQ.Backend.Sources
import TraceQ.Projections.ItemProjection

/-! # Deliveries

Events delivered one at a time, each followed by the rebuilds its endpoint triggers. A delivery is a
duplicate of a stored event or it stores one event and rebuilds its targets, so what is stored in the
end is what was delivered.
-/
namespace TraceQ.Backend
open Projections Ingestion Api Quality Tables Results
set_option autoImplicit false
set_option maxHeartbeats 250000

structure Delivery where
  event : EventEnvelope
  receivedAt : Instant

/-- One delivery that raises nothing and whose rebuilds all succeed. -/
def deliverOne (db : Database) (delivery : Delivery) : Option Database :=
  match receiveEvent db delivery.event delivery.receivedAt with
  | .ok result => if result.failedRebuilds = [] then some result.db else none
  | .error _ => none

/-- The deliveries in order, if all of them go through. -/
def deliver (db : Database) : List Delivery → Option Database
  | [] => some db
  | delivery :: rest => (deliverOne db delivery).bind fun m => deliver m rest

theorem deliver_cons {db db' : Database} {delivery : Delivery} {rest : List Delivery} :
    deliver db (delivery :: rest) = some db' ↔
      ∃ m, deliverOne db delivery = some m ∧ deliver m rest = some db' := by
  rw [deliver, Option.bind_eq_some_iff]

/-! ## One delivery -/

/-- The items rebuilt after the event is stored. -/
def targetsOf (db : Database) (event : EventEnvelope) : List String :=
  rebuildTargets event ⟨.accepted, affectedBy db event⟩

theorem mem_targetsOf {db : Database} {event : EventEnvelope} {itemId : String}
    (hitem : itemId ≠ "") :
    itemId ∈ targetsOf db event ↔ event.itemId = some itemId ∨ itemId ∈ affectedBy db event := by
  rw [targetsOf, rebuildTargets, List.mem_append]
  refine or_congr_left ?_
  cases hown : event.itemId with
  | none => simp
  | some own =>
    by_cases hempty : own.isEmpty = false
    · simp [hempty, eq_comm]
    · have hown' : own = "" := by simpa using hempty
      simp [hown', hitem.symm]

/-- What storing the event writes. -/
structure Accepted (db : Database) (delivery : Delivery) (ingested : Database) : Prop where
  fresh : findRawEvent db delivery.event.eventId = none
  outside : outsideIngestion ingested = outsideIngestion db
  rawEvents : ∃ raw, raw.event = delivery.event ∧ raw.receivedAt = delivery.receivedAt ∧
    ingested.rawEvents = db.rawEvents ++ [raw]
  invalidations : ingested.controlDeviceInvalidations =
    db.controlDeviceInvalidations ++ recordsOf delivery.event

/-- If no rebuild fails, the rebuilds of the endpoint are a loop of successful ones. -/
theorem foldl_rebuildStep_ok {targets : List String} {db : Database} {failed : List String}
    (h : (targets.foldl rebuildStep (db, failed)).2.length ≤ failed.length) :
    targets.foldlM rebuildItem db = .ok (targets.foldl rebuildStep (db, failed)).1 := by
  have hgrows : ∀ (rest : List String) (state : Database × List String),
      state.2.length ≤ (rest.foldl rebuildStep state).2.length := by
    intro rest
    induction rest with
    | nil => exact fun state => le_rfl
    | cons target rest ih =>
      intro state
      refine le_trans ?_ (ih (rebuildStep state target))
      unfold rebuildStep
      split <;> simp
  induction targets generalizing db with
  | nil => rfl
  | cons target rest ih =>
    rw [List.foldl_cons] at h ⊢
    cases hrebuild : rebuildItem db target with
    | ok rebuilt =>
      have hstep : rebuildStep (db, failed) target = (rebuilt, failed) := by
        simp only [rebuildStep, hrebuild]
      rw [hstep] at h ⊢
      exact foldlM_cons_ok.mpr ⟨rebuilt, hrebuild, ih h⟩
    | error e =>
      have hstep : rebuildStep (db, failed) target =
          (markProjectionFailed db target e, failed ++ [target]) := by
        simp only [rebuildStep, hrebuild]
      have hle := hgrows rest (rebuildStep (db, failed) target)
      rw [hstep] at hle h
      simp only [List.length_append, List.length_singleton] at hle
      omega

theorem receiveEvent_ok {db : Database} {event : EventEnvelope} {receivedAt : Instant}
    {result : ReceiveResult} (h : receiveEvent db event receivedAt = .ok result) :
    ∃ ingested, ingestEvent db event receivedAt = .ok (ingested, result.ingestion) ∧
      (result.db, result.failedRebuilds) =
        (rebuildTargets event result.ingestion).foldl rebuildStep (ingested, []) := by
  unfold receiveEvent at h
  obtain ⟨⟨ingested, answer⟩, hingest, h⟩ := bind_ok.mp h
  obtain rfl := pure_ok.mp h
  exact ⟨ingested, hingest, rfl⟩

theorem deliverOne_some {db db' : Database} {delivery : Delivery} :
    deliverOne db delivery = some db' ↔ ∃ result,
      receiveEvent db delivery.event delivery.receivedAt = .ok result ∧
        result.failedRebuilds = [] ∧ result.db = db' := by
  rw [deliverOne]
  cases receiveEvent db delivery.event delivery.receivedAt with
  | ok result => simp [Option.ite_none_right_eq_some]
  | error e => simp

/-- Everything a delivery can do. -/
theorem deliverOne_cases {db db' : Database} {delivery : Delivery}
    (h : deliverOne db delivery = some db') :
    (∃ existing, findRawEvent db delivery.event.eventId = some existing ∧
      existing.event.contentHash = delivery.event.contentHash ∧ db' = db) ∨
    ∃ ingested, Accepted db delivery ingested ∧
      (targetsOf db delivery.event).foldlM rebuildItem ingested = .ok db' := by
  obtain ⟨result, hreceive, hrebuilt, rfl⟩ := deliverOne_some.mp h
  obtain ⟨ingested, hingest, hdone⟩ := receiveEvent_ok hreceive
  rcases ingestEvent_cases hingest with ⟨existing, hfind, hhash, rfl, hanswer⟩ |
    ⟨hfresh, hanswer, hout, hraws, hinv⟩
  · have hnone : rebuildTargets delivery.event ⟨.duplicate, []⟩ = [] := by
      unfold rebuildTargets
      cases delivery.event.itemId <;> simp
    rw [hanswer, hnone] at hdone
    exact .inl ⟨existing, hfind, hhash, congrArg Prod.fst hdone⟩
  · rw [hanswer] at hdone
    have hnone : ((targetsOf db delivery.event).foldl rebuildStep (ingested, [])).2 = [] :=
      (congrArg Prod.snd hdone).symm.trans hrebuilt
    have hfailed := (congrArg List.length hnone).le
    refine .inr ⟨ingested, ⟨hfresh, hout, hraws, hinv⟩, ?_⟩
    rw [foldl_rebuildStep_ok hfailed]
    exact congrArg Except.ok (congrArg Prod.fst hdone).symm

theorem deliverOne_reachable {db db' : Database} {delivery : Delivery} (hdb : Reachable db)
    (h : deliverOne db delivery = some db') : Reachable db' := by
  obtain ⟨result, hreceive, -, rfl⟩ := deliverOne_some.mp h
  rw [receiveEvent_eq_run hreceive]
  exact reachable_run hdb _

/-! ## What an accepted delivery leaves -/

section Accepted
variable {db ingested db' : Database} (hwf : WellFormed db) {delivery : Delivery}
  (haccepted : Accepted db delivery ingested)
include hwf haccepted

omit hwf in
theorem Accepted.sameCases : SameCases db ingested := by
  have hout := haccepted.outside
  have hnext : ingested.nextId = db.nextId := (congrArg Database.nextId hout :)
  exact ⟨(congrArg Database.defectOccurrences hout :), (congrArg Database.nonconformances hout :),
    (congrArg Database.analysisVersions hout :), (congrArg Database.analysisEvidence hout :), hnext.ge⟩

theorem Accepted.wellFormed : WellFormed ingested := haccepted.sameCases.wellFormed hwf

omit hwf in
theorem Accepted.config : ingested.config = db.config :=
  (congrArg Database.config haccepted.outside :)

omit hwf in
theorem Accepted.projectedRows (itemId : String) :
    Projections.projectedRows ingested itemId = Projections.projectedRows db itemId := by
  have hout := haccepted.outside
  exact projectedRows_congr ⟨(congrArg Database.operationRuns hout :),
    (congrArg Database.observations hout :), (congrArg Database.defectObservations hout :),
    (congrArg Database.machineEvents hout :), (congrArg Database.operatorActions hout :)⟩ itemId

omit hwf in
/-- An event of the item joins its stored events, any other event leaves them. -/
theorem Accepted.storedEvents (itemId : String) :
    (delivery.event.itemId = some itemId ∧ ∃ raw, raw.event = delivery.event ∧
      raw.receivedAt = delivery.receivedAt ∧
      Projections.storedEvents ingested itemId = Projections.storedEvents db itemId ++ [raw]) ∨
    (delivery.event.itemId ≠ some itemId ∧
      Projections.storedEvents ingested itemId = Projections.storedEvents db itemId) := by
  obtain ⟨raw, hevent, hreceived, hraws⟩ := haccepted.rawEvents
  have hitem : raw.itemId = delivery.event.itemId := congrArg EventEnvelope.itemId hevent
  have hsplit : Projections.storedEvents ingested itemId = Projections.storedEvents db itemId ++
      [raw].filter fun raw => decide (raw.itemId = some itemId) := by
    rw [Projections.storedEvents, Projections.storedEvents, hraws, List.filter_append]
  by_cases hown : delivery.event.itemId = some itemId
  · refine .inl ⟨hown, raw, hevent, hreceived, ?_⟩
    rw [hsplit, List.filter_cons_of_pos (by simp [hitem, hown]), List.filter_nil]
  · refine .inr ⟨hown, ?_⟩
    rw [hsplit, List.filter_cons_of_neg (by simp [hitem, hown]), List.filter_nil, List.append_nil]

end Accepted

/-! ## What a list of deliveries leaves -/

/-- What a delivery and its rebuilds leave of the source records. -/
theorem deliverOne_keeps {db db' : Database} (hwf : WellFormed db) {delivery : Delivery}
    (h : deliverOne db delivery = some db') :
    WellFormed db' ∧ db'.config = db.config ∧ db.rawEvents <+: db'.rawEvents := by
  rcases deliverOne_cases h with ⟨_, -, -, rfl⟩ | ⟨ingested, haccepted, hloop⟩
  · exact ⟨hwf, rfl, List.prefix_rfl⟩
  · obtain ⟨hwf', hout⟩ := rebuilds_outside (haccepted.wellFormed hwf) hloop
    obtain ⟨raw, -, -, hraws⟩ := haccepted.rawEvents
    refine ⟨hwf', (config_of_outside hout).trans haccepted.config, ?_⟩
    rw [rawEvents_of_outside hout, hraws]
    exact List.prefix_append _ _

theorem deliver_keeps {db db' : Database} {deliveries : List Delivery} (hwf : WellFormed db)
    (h : deliver db deliveries = some db') :
    WellFormed db' ∧ db'.config = db.config ∧ db.rawEvents <+: db'.rawEvents := by
  induction deliveries generalizing db with
  | nil => exact Option.some.inj h ▸ ⟨hwf, rfl, List.prefix_rfl⟩
  | cons delivery rest ih =>
    obtain ⟨m, hm, hrest⟩ := deliver_cons.mp h
    obtain ⟨hwfm, hconfig, hraws⟩ := deliverOne_keeps hwf hm
    obtain ⟨hwf', hconfig', hraws'⟩ := ih hwfm hrest
    exact ⟨hwf', hconfig'.trans hconfig, hraws.trans hraws'⟩

theorem deliver_reachable {db db' : Database} {deliveries : List Delivery} (hdb : Reachable db)
    (h : deliver db deliveries = some db') : Reachable db' := by
  induction deliveries generalizing db with
  | nil => exact Option.some.inj h ▸ hdb
  | cons delivery rest ih =>
    obtain ⟨m, hm, hrest⟩ := deliver_cons.mp h
    exact ih (deliverOne_reachable hdb hm) hrest

theorem findRawEvent_iff {db : Database} (h : Sources db) {eventId : String} {raw : RawEvent} :
    findRawEvent db eventId = some raw ↔ raw ∈ db.rawEvents ∧ raw.eventId = eventId :=
  find?_key_eq_some_iff h.event_ids

/-- A delivered event with the id of a stored one has its content. -/
theorem deliver_hash {db db' : Database} {deliveries : List Delivery} (hdb : Reachable db)
    (h : deliver db deliveries = some db') {delivery : Delivery} (hmem : delivery ∈ deliveries)
    {raw : RawEvent} (hraw : raw ∈ db.rawEvents) (hid : raw.eventId = delivery.event.eventId) :
    raw.event.contentHash = delivery.event.contentHash := by
  induction deliveries generalizing db with
  | nil => cases hmem
  | cons first rest ih =>
    obtain ⟨m, hm, hrest⟩ := deliver_cons.mp h
    rcases List.mem_cons.mp hmem with rfl | hlater
    · have hfind := (findRawEvent_iff (reachable_sources hdb)).mpr ⟨hraw, hid⟩
      rcases deliverOne_cases hm with ⟨existing, hexisting, hhash, -⟩ | ⟨_, haccepted, -⟩
      · obtain rfl := Option.some.inj (hfind.symm.trans hexisting)
        exact hhash
      · rw [haccepted.fresh] at hfind
        cases hfind
    · have hextends := (deliverOne_keeps (reachable_sound hdb).toWellFormed hm).2.2
      exact ih (deliverOne_reachable hdb hm) hrest hlater (hextends.subset hraw)

/-- The recorded invalidations are those from before and those delivered. -/
theorem deliver_invalidations {db db' : Database} {deliveries : List Delivery} (hdb : Reachable db)
    (h : deliver db deliveries = some db') (record : ControlDeviceInvalidation) :
    record ∈ db'.controlDeviceInvalidations ↔ record ∈ db.controlDeviceInvalidations ∨
      ∃ delivery ∈ deliveries, record ∈ recordsOf delivery.event := by
  induction deliveries generalizing db with
  | nil => simp [← Option.some.inj h]
  | cons first rest ih =>
    obtain ⟨m, hm, hrest⟩ := deliver_cons.mp h
    rw [ih (deliverOne_reachable hdb hm) hrest]
    simp only [List.mem_cons, exists_eq_or_imp, ← or_assoc]
    refine or_congr_left ?_
    rcases deliverOne_cases hm with ⟨existing, hfind, hhash, rfl⟩ | ⟨ingested, haccepted, hloop⟩
    · -- the record of a duplicate is there already
      obtain ⟨hmem, -⟩ := (findRawEvent_iff (reachable_sources hdb)).mp hfind
      have hold := (reachable_sources hdb).recorded existing hmem
      rw [recordsOf_of_hash hhash] at hold
      exact ⟨.inl, fun hr => hr.elim id fun hnew => hold hnew⟩
    · have hwf := haccepted.wellFormed (reachable_sound hdb).toWellFormed
      rw [invalidations_of_outside (rebuilds_outside hwf hloop).2, haccepted.invalidations,
        List.mem_append]

/-! ## The stored events of one item -/

/-- Time, source and sequence: the business order without the time of receipt. -/
def businessTriple (event : EventEnvelope) : Instant ×ₗ String ×ₗ WithTop ℕ :=
  toLex (event.occurredAt, toLex (event.source.sourceId, (event.source.sequence : WithTop ℕ)))

/-- The deliveries of the item. -/
def ownDeliveries (itemId : String) (deliveries : List Delivery) : List Delivery :=
  deliveries.filter fun delivery => decide (delivery.event.itemId = some itemId)

/-- Whether the event is one of the item that is not stored yet. -/
def isNew (db : Database) (itemId : String) (event : EventEnvelope) : Bool :=
  decide (event.itemId = some itemId) &&
    (storedEvents db itemId).all fun raw => decide (raw.eventId ≠ event.eventId)

/-- What is left of a delivery in its stored event. -/
def deliveryOf (raw : RawEvent) : Delivery := ⟨raw.event, raw.receivedAt⟩

theorem triple_of_hash {a b : EventEnvelope} (h : a.contentHash = b.contentHash) :
    businessTriple a = businessTriple b := by
  have htime : a.occurredAt = b.occurredAt := congrArg ContentHash.occurredAt h
  have hsource : a.source = b.source := congrArg ContentHash.source h
  rw [businessTriple, businessTriple, htime, hsource]

theorem mem_storedEvents {db : Database} {itemId : String} {raw : RawEvent} :
    raw ∈ storedEvents db itemId ↔ raw ∈ db.rawEvents ∧ raw.itemId = some itemId := by
  rw [storedEvents, List.mem_filter, decide_eq_true_eq]

/-- The deliveries of an item leave its new events behind, in the order of delivery. -/
theorem deliver_stored {db db' : Database} {deliveries : List Delivery} (hdb : Reachable db)
    (h : deliver db deliveries = some db') {itemId : String}
    (hdistinct : ((ownDeliveries itemId deliveries).map fun d => businessTriple d.event).Nodup) :
    ∃ new, storedEvents db' itemId = storedEvents db itemId ++ new ∧
      new.map deliveryOf = deliveries.filter fun d => isNew db itemId d.event := by
  induction deliveries generalizing db with
  | nil => exact ⟨[], by simp [← Option.some.inj h], rfl⟩
  | cons first rest ih =>
    obtain ⟨m, hm, hrest⟩ := deliver_cons.mp h
    have hdistinctRest : ((ownDeliveries itemId rest).map fun d => businessTriple d.event).Nodup := by
      refine hdistinct.sublist (List.Sublist.map _ ?_)
      exact (List.sublist_cons_self first rest).filter _
    obtain ⟨new, hstored, hnew⟩ := ih (deliverOne_reachable hdb hm) hrest hdistinctRest
    rcases deliverOne_cases hm with ⟨existing, hfind, hhash, rfl⟩ | ⟨ingested, haccepted, hloop⟩
    · -- a duplicate is not new
      obtain ⟨hmem, hid⟩ := (findRawEvent_iff (reachable_sources hdb)).mp hfind
      have hitem : existing.itemId = first.event.itemId := congrArg ContentHash.itemId hhash
      have hold : isNew m itemId first.event = false := by
        rw [isNew, Bool.and_eq_false_iff]
        by_cases hown : first.event.itemId = some itemId
        · refine .inr (List.all_eq_false.mpr ⟨existing, mem_storedEvents.mpr ⟨hmem, ?_⟩, by simp [hid]⟩)
          rw [hitem, hown]
        · exact .inl (decide_eq_false hown)
      exact ⟨new, hstored, by rw [hnew, List.filter_cons_of_neg (by simp [hold])]⟩
    · have hwf := haccepted.wellFormed (reachable_sound hdb).toWellFormed
      have hm' := storedEvents_congr (rawEvents_of_outside (rebuilds_outside hwf hloop).2) itemId
      rcases haccepted.storedEvents itemId with ⟨hown, raw, hevent, hreceived, hsplit⟩ | ⟨hother, hsame⟩
      · have hfirst : isNew db itemId first.event = true := by
          rw [isNew, Bool.and_eq_true, decide_eq_true_eq, List.all_eq_true]
          refine ⟨hown, fun old hold => ?_⟩
          have hmiss := List.find?_eq_none.mp haccepted.fresh old (mem_storedEvents.mp hold).1
          simpa using hmiss
        -- an event delivered later under the same id would have the same triple
        have hsame : ∀ d ∈ rest, isNew m itemId d.event = isNew db itemId d.event := by
          intro d hd
          by_cases hdown : d.event.itemId = some itemId
          · have hne : raw.eventId ≠ d.event.eventId := by
              intro hid
              have hrawMem : raw ∈ storedEvents m itemId := by
                rw [hm', hsplit]
                exact List.mem_append_right _ (List.mem_singleton_self _)
              have hhash := deliver_hash (deliverOne_reachable hdb hm) hrest hd
                (mem_storedEvents.mp hrawMem).1 hid
              rw [ownDeliveries, List.filter_cons_of_pos (by simp [hown]), List.map_cons,
                List.nodup_cons] at hdistinct
              refine hdistinct.1 (List.mem_map.mpr ⟨d, List.mem_filter.mpr ⟨hd, by simp [hdown]⟩, ?_⟩)
              rw [← hevent]
              exact (triple_of_hash hhash).symm
            rw [isNew, isNew, hm', hsplit, List.all_append]
            simp [hne]
          · simp [isNew, hdown]
        refine ⟨raw :: new, ?_, ?_⟩
        · rw [hstored, hm', hsplit, List.append_assoc]
          rfl
        · rw [List.map_cons, hnew, List.filter_cons_of_pos (by simp [hfirst]),
            List.filter_congr hsame, deliveryOf, hevent, hreceived]
      · have hfirst : isNew db itemId first.event = false := by simp [isNew, hother]
        have hsame' : ∀ d ∈ rest, isNew m itemId d.event = isNew db itemId d.event := by
          intro d _
          rw [isNew, isNew, hm', hsame]
        refine ⟨new, by rw [hstored, hm', hsame], ?_⟩
        rw [hnew, List.filter_cons_of_neg (by simp [hfirst]), List.filter_congr hsame']

end TraceQ.Backend
