import TraceQ.Backend.Deliveries
import TraceQ.Properties.Reopening

/-! # The order of delivery

The projected rows of an item do not depend on the order in which its events are delivered. The
stored events are the same up to the order of storing, the business order puts them in the same
order again, and every delivery that could change the rows rebuilds them.
-/
namespace TraceQ.Properties
open Projections Ingestion Api Quality Tables Results Backend
set_option autoImplicit false
set_option maxHeartbeats 250000

/-! ## Business order -/

theorem businessKey_le {a b : RawEvent} (h : businessKey a ≤ businessKey b) :
    businessTriple a.event ≤ businessTriple b.event ∧
      (businessTriple a.event = businessTriple b.event →
        toLex (a.receivedAt, a.eventId) ≤ toLex (b.receivedAt, b.eventId)) := by
  simp only [businessKey, businessTriple, Prod.Lex.toLex_le_toLex', EmbeddingLike.apply_eq_iff_eq,
    Prod.mk.injEq] at h ⊢
  obtain ⟨htime, h⟩ := h
  refine ⟨⟨htime, fun ht => ⟨(h ht).1, fun hs => ((h ht).2 hs).1⟩⟩, ?_⟩
  rintro ⟨ht, hsource⟩
  obtain ⟨hs, hseq⟩ := Prod.mk.inj hsource
  exact ((h ht).2 hs).2 hseq

/-- An event with its receipt, or `⊤` for an event yet to be received. -/
abbrev Tagged := EventEnvelope × WithTop (Instant ×ₗ String)

def rank (tagged : Tagged) : (Instant ×ₗ String ×ₗ WithTop ℕ) ×ₗ WithTop (Instant ×ₗ String) :=
  toLex (businessTriple tagged.1, tagged.2)

/-- The stored events keep their receipt, whatever is received later. -/
def tagged (old : List RawEvent) (raw : RawEvent) : Tagged :=
  (raw.event, if raw.eventId ∈ old.map (·.eventId) then ((toLex (raw.receivedAt, raw.eventId) :
    Instant ×ₗ String) : WithTop (Instant ×ₗ String)) else ⊤)

/-- New events with triples of their own, received after the old ones of the same triple. -/
structure Arrives (old new : List RawEvent) : Prop where
  ids : ∀ raw ∈ new, raw.eventId ∉ old.map (·.eventId)
  triples : (new.map fun raw => businessTriple raw.event).Nodup
  later : ∀ a ∈ old, ∀ b ∈ new, businessTriple a.event = businessTriple b.event →
    a.receivedAt < b.receivedAt

theorem tagged_old {old : List RawEvent} {raw : RawEvent} (h : raw ∈ old) :
    tagged old raw = (raw.event, ((toLex (raw.receivedAt, raw.eventId) : Instant ×ₗ String) :
      WithTop (Instant ×ₗ String))) := by
  rw [tagged, if_pos (List.mem_map_of_mem h)]

theorem tagged_new {old new : List RawEvent} (h : Arrives old new) {raw : RawEvent}
    (hraw : raw ∈ new) : tagged old raw = (raw.event, ⊤) := by
  rw [tagged, if_neg (h.ids raw hraw)]

/-- The business order of the stored events is that of their tags. -/
theorem rank_mono {old new : List RawEvent} (h : Arrives old new) :
    ∀ a ∈ old ++ new, ∀ b ∈ old ++ new, businessKey a ≤ businessKey b →
      rank (tagged old a) ≤ rank (tagged old b) := by
  intro a ha b hb hle
  obtain ⟨htriple, hreceipt⟩ := businessKey_le hle
  rw [rank, rank, Prod.Lex.toLex_le_toLex']
  refine ⟨htriple, fun heq => ?_⟩
  have hreceived := hreceipt heq
  rcases List.mem_append.mp hb with hbold | hbnew
  · rcases List.mem_append.mp ha with haold | hanew
    · rw [tagged_old haold, tagged_old hbold]
      exact WithTop.coe_le_coe.mpr hreceived
    · -- a new event is received after the old one of its triple
      have hlt := h.later b hbold a hanew heq.symm
      exact absurd (Prod.Lex.toLex_le_toLex'.mp hreceived).1 hlt.not_ge
  · rw [tagged_new h hbnew]
    exact le_top

/-- Events with the same rank are the same. -/
theorem tagged_anti {old new new' : List RawEvent} (hids : (old.map (·.eventId)).Nodup)
    (h : Arrives old new) (h' : Arrives old new')
    (hperm : (new.map (·.event)).Perm (new'.map (·.event))) :
    ∀ a ∈ old ++ new, ∀ b ∈ old ++ new', rank (tagged old a) ≤ rank (tagged old b) →
      rank (tagged old b) ≤ rank (tagged old a) → tagged old a = tagged old b := by
  intro a ha b hb hab hba
  have hrank : rank (tagged old a) = rank (tagged old b) := le_antisymm hab hba
  rw [rank, rank, EmbeddingLike.apply_eq_iff_eq, Prod.mk.injEq] at hrank
  obtain ⟨htriple, htag⟩ := hrank
  rcases List.mem_append.mp ha with haold | hanew <;> rcases List.mem_append.mp hb with hbold | hbnew
  · rw [tagged_old haold, tagged_old hbold] at htag
    have hid : a.eventId = b.eventId := by
      have hpair := WithTop.coe_injective htag
      rw [EmbeddingLike.apply_eq_iff_eq, Prod.mk.injEq] at hpair
      exact hpair.2
    rw [eq_of_nodup_map hids haold hbold hid]
  · rw [tagged_old haold, tagged_new h' hbnew] at htag
    exact absurd htag (WithTop.coe_ne_top)
  · rw [tagged_new h hanew, tagged_old hbold] at htag
    exact absurd htag.symm (WithTop.coe_ne_top)
  · obtain ⟨c, hc, hcevent⟩ := List.mem_map.mp (hperm.mem_iff.mpr (List.mem_map_of_mem hbnew))
    rw [tagged_new h hanew, tagged_new h' hbnew] at htriple ⊢
    have hsame : a = c := by
      refine eq_of_nodup_map h.triples hanew hc ?_
      rw [hcevent]
      exact htriple
    rw [hsame, hcevent]

/-- The history of an item is the same sequence of events, in whatever order the new ones came. -/
theorem history_events_eq {first second : Database} {itemId : String} {old new new' : List RawEvent}
    (hfirst : storedEvents first itemId = old ++ new)
    (hsecond : storedEvents second itemId = old ++ new') (hids : (old.map (·.eventId)).Nodup)
    (h : Arrives old new) (h' : Arrives old new')
    (hperm : (new.map (·.event)).Perm (new'.map (·.event))) :
    (history first itemId).map (·.event) = (history second itemId).map (·.event) := by
  have hnew : ∀ {added : List RawEvent}, Arrives old added →
      added.map (tagged old) = (added.map (·.event)).map fun event => (event, ⊤) := by
    intro added harrives
    rw [List.map_map]
    exact List.map_congr_left fun raw hraw => tagged_new harrives hraw
  have htagged : (history first itemId).map (tagged old) = (history second itemId).map (tagged old) := by
    rw [history, history, hfirst, hsecond]
    refine map_insertionSort_congr (r := fun a b => rank a ≤ rank b) (rank_mono h) (rank_mono h')
      (tagged_anti hids h h' hperm) ?_
    rw [List.map_append, List.map_append, hnew h, hnew h']
    exact (hperm.map _).append_left _
  have hfst := congrArg (List.map Prod.fst) htagged
  rw [List.map_map, List.map_map] at hfst
  exact hfst

/-! ## Deliveries that touch an item -/

/-- The event would be stored, and the item rebuilt after it. -/
def Touches (db : Database) (itemId : String) (event : EventEnvelope) : Prop :=
  findRawEvent db event.eventId = none ∧ itemId ∈ targetsOf db event

theorem history_eq_nil {db : Database} {itemId : String} :
    history db itemId = [] ↔ storedEvents db itemId = [] := by
  rw [history, ← List.length_eq_zero_iff, List.length_insertionSort, List.length_eq_zero_iff]

theorem storedEvents_prefix {db db' : Database} (h : db.rawEvents <+: db'.rawEvents)
    (itemId : String) : storedEvents db itemId <+: storedEvents db' itemId := h.filter _

/-- Which items an invalidation affects is read off their rows. -/
theorem affectedBy_congr {db m : Database} {itemId : String}
    (hrows : projectedRows m itemId = projectedRows db itemId) {a b : EventEnvelope}
    (hrecords : recordsOf a = recordsOf b) :
    itemId ∈ affectedBy m a ↔ itemId ∈ affectedBy db b := by
  have hobs : ∀ obs, (obs ∈ m.observations ∧ obs.itemId = itemId) ↔
      (obs ∈ db.observations ∧ obs.itemId = itemId) := by
    intro obs
    rw [← mem_ownedBy, ← mem_ownedBy]
    exact (congrArg (obs ∈ ·.observations) hrows).to_iff
  rw [mem_affectedBy, mem_affectedBy, hrecords]
  refine exists_congr fun record => and_congr_right fun _ => exists_congr fun obs => ?_
  rw [← and_assoc, ← and_assoc, hobs]

section One
variable {db m : Database} (hwf : WellFormed db) {delivery : Delivery}
  (hm : deliverOne db delivery = some m) {itemId : String}
include hwf hm

/-- A delivery that does not touch the item leaves its rows and its stored events. -/
theorem untouched_keeps (hitem : itemId ≠ "") (hnot : ¬ Touches db itemId delivery.event) :
    projectedRows m itemId = projectedRows db itemId ∧
      storedEvents m itemId = storedEvents db itemId := by
  rcases deliverOne_cases hm with ⟨_, -, -, rfl⟩ | ⟨ingested, haccepted, hloop⟩
  · exact ⟨rfl, rfl⟩
  · have hwf' := haccepted.wellFormed hwf
    have hother : itemId ∉ targetsOf db delivery.event := fun hmem => hnot ⟨haccepted.fresh, hmem⟩
    refine ⟨(rebuilds_rows_other hwf' hloop hother).trans (haccepted.projectedRows itemId), ?_⟩
    rw [storedEvents_congr (rawEvents_of_outside (rebuilds_outside hwf' hloop).2)]
    rcases haccepted.storedEvents itemId with ⟨hown, -⟩ | ⟨-, hsame⟩
    · exact absurd ((mem_targetsOf hitem).mpr (.inl hown)) hother
    · exact hsame

/-- A delivery that touches the item brings its rows in sync. -/
theorem touched_synced (htouches : Touches db itemId delivery.event)
    (hstored : storedEvents m itemId ≠ []) : Synced m itemId := by
  rcases deliverOne_cases hm with ⟨existing, hfind, -⟩ | ⟨ingested, haccepted, hloop⟩
  · rw [htouches.1] at hfind
    cases hfind
  · have hwf' := haccepted.wellFormed hwf
    rw [storedEvents_congr (rawEvents_of_outside (rebuilds_outside hwf' hloop).2)] at hstored
    exact rebuilds_synced hwf' hloop htouches.2 (mt history_eq_nil.mp hstored)

/-- Rows in sync stay so: an invalidation that covers one of them rebuilds the item. -/
theorem Synced.deliverOne (hitem : itemId ≠ "") (hsynced : Synced db itemId) : Synced m itemId := by
  have hkept := storedEvents_prefix (deliverOne_keeps hwf hm).2.2 itemId
  have hstored : storedEvents m itemId ≠ [] := by
    intro hnil
    rw [hnil, List.prefix_nil] at hkept
    exact hsynced.1 (history_eq_nil.mpr hkept)
  by_cases htouches : Touches db itemId delivery.event
  · exact touched_synced hwf hm htouches hstored
  · rcases deliverOne_cases hm with ⟨_, -, -, rfl⟩ | ⟨ingested, haccepted, hloop⟩
    · exact hsynced
    · have hother : itemId ∉ targetsOf db delivery.event :=
        fun hmem => htouches ⟨haccepted.fresh, hmem⟩
      rw [mem_targetsOf hitem, not_or, mem_affectedBy] at hother
      have hhistory : history ingested itemId = history db itemId := by
        rcases haccepted.storedEvents itemId with ⟨hown, -⟩ | ⟨-, hsame⟩
        · exact absurd hown hother.1
        · rw [history, history, hsame]
      have hreplay := hsynced.replay_missed hhistory haccepted.config haccepted.invalidations
        fun record hrecord obs hobs hown => by
          by_contra hcovers
          exact hother.2 ⟨record, hrecord, obs, hobs, hown, by simpa using hcovers⟩
      refine Synced.rebuilds (haccepted.wellFormed hwf) hloop ⟨hhistory ▸ hsynced.1, ?_⟩
      rw [hreplay, haccepted.projectedRows]
      exact hsynced.2

/-- Without stored events nothing is written. -/
theorem empty_keeps (hstored : storedEvents m itemId = []) :
    projectedRows m itemId = projectedRows db itemId := by
  rcases deliverOne_cases hm with ⟨_, -, -, rfl⟩ | ⟨ingested, haccepted, hloop⟩
  · rfl
  · have hwf' := haccepted.wellFormed hwf
    rw [storedEvents_congr (rawEvents_of_outside (rebuilds_outside hwf' hloop).2)] at hstored
    rw [rebuilds_rows_empty hwf' hloop (history_eq_nil.mpr hstored), haccepted.projectedRows]

end One

/-- A delivery that does not touch the item does not change which later ones do. -/
theorem touches_after {db m db' : Database} (hdb : Reachable db) {delivery : Delivery}
    (hm : deliverOne db delivery = some m) {itemId : String} (hitem : itemId ≠ "")
    (hnot : ¬ Touches db itemId delivery.event) {rest : List Delivery}
    (hrest : deliver m rest = some db') {later : Delivery} (hlater : later ∈ rest) :
    Touches m itemId later.event ↔ Touches db itemId later.event := by
  have hwf := (reachable_sound hdb).toWellFormed
  obtain ⟨hrows, -⟩ := untouched_keeps hwf hm hitem hnot
  have htargets : itemId ∈ targetsOf m later.event ↔ itemId ∈ targetsOf db later.event := by
    rw [mem_targetsOf hitem, mem_targetsOf hitem, affectedBy_congr hrows rfl]
  constructor
  · rintro ⟨hfresh, hmem⟩
    refine ⟨?_, htargets.mp hmem⟩
    rw [findRawEvent, List.find?_eq_none] at hfresh ⊢
    exact fun raw hraw => hfresh raw ((deliverOne_keeps hwf hm).2.2.subset hraw)
  · rintro ⟨hfresh, hmem⟩
    refine ⟨?_, htargets.mpr hmem⟩
    by_contra hfound
    obtain ⟨raw, hraw⟩ := Option.ne_none_iff_exists'.mp hfound
    obtain ⟨hrawMem, hid⟩ := (findRawEvent_iff (reachable_sources (deliverOne_reachable hdb hm))).mp hraw
    have hhash := deliver_hash (deliverOne_reachable hdb hm) hrest hlater hrawMem hid
    rcases deliverOne_cases hm with ⟨_, -, -, rfl⟩ | ⟨ingested, haccepted, hloop⟩
    · rw [hfresh] at hraw
      cases hraw
    · -- the event stored under this id is the one just delivered, and it has the same content
      obtain ⟨new, hevent, -, hraws⟩ := haccepted.rawEvents
      rw [rawEvents_of_outside (rebuilds_outside (haccepted.wellFormed hwf) hloop).2, hraws] at hrawMem
      rcases List.mem_append.mp hrawMem with hold | hnew
      · rw [findRawEvent, List.find?_eq_none] at hfresh
        exact hfresh raw hold (by simpa using hid)
      · rw [List.mem_singleton.mp hnew, hevent] at hhash
        refine hnot ⟨haccepted.fresh, ?_⟩
        rw [mem_targetsOf hitem] at hmem ⊢
        have hown : delivery.event.itemId = later.event.itemId := congrArg ContentHash.itemId hhash
        rw [hown, affectedBy_congr rfl (recordsOf_of_hash hhash)]
        exact hmem

/-! ## Lists of deliveries -/

section Lists
variable {db db' : Database} {deliveries : List Delivery} {itemId : String} (hitem : itemId ≠ "")
include hitem

theorem deliver_untouched (hdb : Reachable db) (h : deliver db deliveries = some db')
    (hnot : ∀ delivery ∈ deliveries, ¬ Touches db itemId delivery.event) :
    projectedRows db' itemId = projectedRows db itemId ∧
      storedEvents db' itemId = storedEvents db itemId := by
  induction deliveries generalizing db with
  | nil => exact Option.some.inj h ▸ ⟨rfl, rfl⟩
  | cons first rest ih =>
    obtain ⟨m, hm, hrest⟩ := deliver_cons.mp h
    have hfirst := hnot first List.mem_cons_self
    obtain ⟨hrows, hstored⟩ := untouched_keeps (reachable_sound hdb).toWellFormed hm hitem hfirst
    obtain ⟨hrows', hstored'⟩ := ih (deliverOne_reachable hdb hm) hrest fun later hlater =>
      mt (touches_after hdb hm hitem hfirst hrest hlater).mp (hnot later (List.mem_cons_of_mem _ hlater))
    exact ⟨hrows'.trans hrows, hstored'.trans hstored⟩

theorem Synced.deliver (hdb : Reachable db) (h : Backend.deliver db deliveries = some db')
    (hsynced : Synced db itemId) : Synced db' itemId := by
  induction deliveries generalizing db with
  | nil => exact Option.some.inj h ▸ hsynced
  | cons first rest ih =>
    obtain ⟨m, hm, hrest⟩ := deliver_cons.mp h
    exact ih (deliverOne_reachable hdb hm) hrest
      (Synced.deliverOne (reachable_sound hdb).toWellFormed hm hitem hsynced)

/-- Once some delivery touches the item, its rows end in sync. -/
theorem deliver_synced (hdb : Reachable db) (h : deliver db deliveries = some db')
    (htouched : ∃ delivery ∈ deliveries, Touches db itemId delivery.event)
    (hstored : storedEvents db' itemId ≠ []) : Synced db' itemId := by
  induction deliveries generalizing db with
  | nil => exact absurd htouched (by simp)
  | cons first rest ih =>
    obtain ⟨m, hm, hrest⟩ := deliver_cons.mp h
    have hwf := (reachable_sound hdb).toWellFormed
    have hdbm := deliverOne_reachable hdb hm
    by_cases hfirst : Touches db itemId first.event
    · by_cases hempty : storedEvents m itemId = []
      · -- the item has no event yet, so some later delivery brings one
        refine ih hdbm hrest ?_
        by_contra hnone
        have hkept := (deliver_untouched hitem hdbm hrest fun later hlater htouches =>
          hnone ⟨later, hlater, htouches⟩).2
        exact hstored (hkept.trans hempty)
      · exact Synced.deliver hitem hdbm hrest (touched_synced hwf hm hfirst hempty)
    · obtain ⟨later, hlater, htouches⟩ := htouched
      rcases List.mem_cons.mp hlater with rfl | hmem
      · exact absurd htouches hfirst
      · exact ih hdbm hrest ⟨later, hmem, (touches_after hdb hm hitem hfirst hrest hmem).mpr htouches⟩

omit hitem in
theorem deliver_empty (hdb : Reachable db) (h : deliver db deliveries = some db')
    (hempty : storedEvents db' itemId = []) :
    projectedRows db' itemId = projectedRows db itemId := by
  induction deliveries generalizing db with
  | nil => exact Option.some.inj h ▸ rfl
  | cons first rest ih =>
    obtain ⟨m, hm, hrest⟩ := deliver_cons.mp h
    have hdbm := deliverOne_reachable hdb hm
    have hkept := storedEvents_prefix (deliver_keeps (reachable_sound hdbm).toWellFormed hrest).2.2 itemId
    rw [hempty, List.prefix_nil] at hkept
    exact (ih hdbm hrest).trans (empty_keeps (reachable_sound hdb).toWellFormed hm hkept)

end Lists

/-! ## Two orders of delivery -/

/-- An own event that shares its triple with another stored one is received after it. -/
def ReceivedLater (db : Database) (itemId : String) (deliveries : List Delivery) : Prop :=
  ∀ raw ∈ storedEvents db itemId, ∀ delivery ∈ ownDeliveries itemId deliveries,
    raw.eventId ≠ delivery.event.eventId →
    businessTriple raw.event = businessTriple delivery.event → raw.receivedAt < delivery.receivedAt

theorem arrives_of_delivered {db : Database} {itemId : String} {deliveries : List Delivery}
    {new : List RawEvent}
    (hnew : new.map deliveryOf = deliveries.filter fun d => isNew db itemId d.event)
    (hdistinct : ((ownDeliveries itemId deliveries).map fun d => businessTriple d.event).Nodup)
    (hlater : ReceivedLater db itemId deliveries) : Arrives (storedEvents db itemId) new := by
  have hfresh : ∀ raw ∈ new, deliveryOf raw ∈ ownDeliveries itemId deliveries ∧
      ∀ old ∈ storedEvents db itemId, old.eventId ≠ raw.eventId := by
    intro raw hraw
    have hmem : deliveryOf raw ∈ deliveries.filter fun d => isNew db itemId d.event :=
      hnew ▸ List.mem_map_of_mem hraw
    obtain ⟨hdelivered, hisNew⟩ := List.mem_filter.mp hmem
    rw [isNew, Bool.and_eq_true, List.all_eq_true] at hisNew
    exact ⟨List.mem_filter.mpr ⟨hdelivered, hisNew.1⟩,
      fun old hold => of_decide_eq_true (hisNew.2 old hold)⟩
  refine ⟨fun raw hraw hmem => ?_, ?_, fun old hold raw hraw htriple => ?_⟩
  · obtain ⟨old, hold, hid⟩ := List.mem_map.mp hmem
    exact (hfresh raw hraw).2 old hold hid
  · have hmap : new.map (fun raw => businessTriple raw.event) =
        (deliveries.filter fun d => isNew db itemId d.event).map fun d => businessTriple d.event := by
      rw [← hnew, List.map_map]
      rfl
    rw [hmap]
    refine hdistinct.sublist (List.Sublist.map _ (List.monotone_filter_right deliveries ?_))
    intro d hd
    rw [isNew, Bool.and_eq_true] at hd
    exact hd.1
  · obtain ⟨hown, hids⟩ := hfresh raw hraw
    exact hlater old hold (deliveryOf raw) hown (hids old hold) htriple

theorem new_events_perm {db : Database} {itemId : String} {deliveries deliveries' : List Delivery}
    (hperm : (deliveries.map (·.event)).Perm (deliveries'.map (·.event))) {new new' : List RawEvent}
    (hnew : new.map deliveryOf = deliveries.filter fun d => isNew db itemId d.event)
    (hnew' : new'.map deliveryOf = deliveries'.filter fun d => isNew db itemId d.event) :
    (new.map (·.event)).Perm (new'.map (·.event)) := by
  have hevents : ∀ {added : List RawEvent} {ds : List Delivery},
      added.map deliveryOf = ds.filter (fun d => isNew db itemId d.event) →
      added.map (·.event) = (ds.map (·.event)).filter (isNew db itemId) := by
    intro added ds hadded
    have hmap := congrArg (List.map Delivery.event) hadded
    rw [List.map_map] at hmap
    rw [List.filter_map]
    exact hmap
  rw [hevents hnew, hevents hnew']
  exact hperm.filter _

/-- Both orders end with the same reach of the invalidations. -/
theorem deviceInvalidated_eq {db first second : Database} (hdb : Reachable db)
    {deliveries deliveries' : List Delivery}
    (hperm : (deliveries.map (·.event)).Perm (deliveries'.map (·.event)))
    (h : deliver db deliveries = some first) (h' : deliver db deliveries' = some second)
    (deviceId : Option String) (time : Instant) :
    deviceInvalidated first.controlDeviceInvalidations deviceId time =
      deviceInvalidated second.controlDeviceInvalidations deviceId time := by
  have hdelivered : ∀ record, (∃ d ∈ deliveries, record ∈ recordsOf d.event) ↔
      ∃ d ∈ deliveries', record ∈ recordsOf d.event := by
    intro record
    have hmem := fun event => hperm.mem_iff (a := event)
    simp only [List.mem_map] at hmem
    constructor
    · rintro ⟨d, hd, hrecord⟩
      obtain ⟨d', hd', hevent⟩ := (hmem d.event).mp ⟨d, hd, rfl⟩
      exact ⟨d', hd', hevent ▸ hrecord⟩
    · rintro ⟨d, hd, hrecord⟩
      obtain ⟨d', hd', hevent⟩ := (hmem d.event).mpr ⟨d, hd, rfl⟩
      exact ⟨d', hd', hevent ▸ hrecord⟩
  have hrecords : ∀ record, record ∈ first.controlDeviceInvalidations ↔
      record ∈ second.controlDeviceInvalidations := by
    intro record
    rw [deliver_invalidations hdb h, deliver_invalidations hdb h', hdelivered]
  rw [deviceInvalidated, deviceInvalidated, Bool.eq_iff_iff, Bool.and_eq_true, Bool.and_eq_true,
    List.any_eq_true, List.any_eq_true]
  simp only [hrecords]

/-- Whatever the order in which events are delivered, the rows of an item end up the same. -/
theorem projection_order_independent {db first second : Database} (hdb : Reachable db)
    {itemId : String} (hitem : itemId ≠ "") {deliveries deliveries' : List Delivery}
    (hperm : (deliveries.map (·.event)).Perm (deliveries'.map (·.event)))
    (hdistinct : ((ownDeliveries itemId deliveries).map fun d => businessTriple d.event).Nodup)
    (hlater : ReceivedLater db itemId deliveries) (hlater' : ReceivedLater db itemId deliveries')
    (h : deliver db deliveries = some first) (h' : deliver db deliveries' = some second) :
    projectedRows first itemId = projectedRows second itemId := by
  have hwf := (reachable_sound hdb).toWellFormed
  have hdistinct' :
      ((ownDeliveries itemId deliveries').map fun d => businessTriple d.event).Nodup := by
    have hown : ∀ ds : List Delivery, (ownDeliveries itemId ds).map (fun d => businessTriple d.event) =
        ((ds.map (·.event)).filter fun event => decide (event.itemId = some itemId)).map
          businessTriple := by
      intro ds
      rw [ownDeliveries, List.filter_map, List.map_map]
      rfl
    rw [hown] at hdistinct ⊢
    exact ((hperm.filter _).map _).nodup_iff.mp hdistinct
  obtain ⟨new, hstored, hnew⟩ := deliver_stored hdb h hdistinct
  obtain ⟨new', hstored', hnew'⟩ := deliver_stored hdb h' hdistinct'
  have hadded := new_events_perm hperm hnew hnew'
  by_cases hempty : storedEvents first itemId = []
  · -- no event of the item at all
    have hempty' : storedEvents second itemId = [] := by
      rw [hstored, List.append_eq_nil_iff] at hempty
      rw [hempty.2, List.map_nil, List.nil_perm, List.map_eq_nil_iff] at hadded
      rw [hstored', hempty.1, hadded, List.nil_append]
    rw [deliver_empty hdb h hempty, deliver_empty hdb h' hempty']
  have hnonempty' : storedEvents second itemId ≠ [] := by
    intro hnil
    rw [hstored', List.append_eq_nil_iff] at hnil
    rw [hnil.2, List.map_nil, List.perm_nil, List.map_eq_nil_iff] at hadded
    exact hempty (by rw [hstored, hnil.1, hadded, List.nil_append])
  have hevents : ∀ event, (∃ d ∈ deliveries, d.event = event) ↔ ∃ d ∈ deliveries', d.event = event := by
    intro event
    rw [← List.mem_map, ← List.mem_map]
    exact hperm.mem_iff
  by_cases htouched : ∃ d ∈ deliveries, Touches db itemId d.event
  · have htouched' : ∃ d ∈ deliveries', Touches db itemId d.event := by
      obtain ⟨d, hd, htouches⟩ := htouched
      obtain ⟨d', hd', hevent⟩ := (hevents d.event).mp ⟨d, hd, rfl⟩
      exact ⟨d', hd', hevent ▸ htouches⟩
    have hids : ((storedEvents db itemId).map (·.eventId)).Nodup :=
      (reachable_sources hdb).event_ids.sublist (List.Sublist.map _ List.filter_sublist)
    have hhistory := history_events_eq hstored hstored' hids
      (arrives_of_delivered hnew hdistinct hlater) (arrives_of_delivered hnew' hdistinct' hlater') hadded
    have hconfig : first.config = second.config :=
      (deliver_keeps hwf h).2.1.trans (deliver_keeps hwf h').2.1.symm
    have hreplay : replay first itemId = replay second itemId := by
      rw [replay, replay, replayEvent_congr hconfig (deviceInvalidated_eq hdb hperm h h'),
        foldl_replayEvent_event hhistory]
    have hrows := (deliver_synced hitem hdb h htouched hempty).2
    have hrows' := (deliver_synced hitem hdb h' htouched' hnonempty').2
    rw [hreplay, hrows'] at hrows
    exact (Except.ok.inj hrows).symm
  · have hnot : ∀ d ∈ deliveries, ¬ Touches db itemId d.event := fun d hd htouches =>
      htouched ⟨d, hd, htouches⟩
    have hnot' : ∀ d ∈ deliveries', ¬ Touches db itemId d.event := by
      intro d hd htouches
      obtain ⟨d', hd', hevent⟩ := (hevents d.event).mpr ⟨d, hd, rfl⟩
      exact hnot d' hd' (hevent ▸ htouches)
    rw [(deliver_untouched hitem hdb h hnot).1, (deliver_untouched hitem hdb h' hnot').1]

/-! ### An invalidation before and after the observation it covers -/

/-- A good inspection by a device. -/
def deviceSees : EventEnvelope where
  eventId := "e-1"
  occurredAt := 10
  source := { sourceId := "camera-1", sourceType := "vision" }
  itemId := some "item-1"
  payload := .inspectionResult
    { inspectionResult := .noDefect
      observationQuality := .good
      controlPointId := "CP-1"
      controlDeviceId := some "device-1"
      validate_defects := nothing_listed }

/-- The device is found to have been out of order, on no item in particular. -/
def deviceFails : EventEnvelope where
  eventId := "e-2"
  occurredAt := 20
  source := { sourceId := "service-1", sourceType := "service" }
  payload := .controlDeviceInvalidated
    { deviceId := "device-1", affectedFrom := 0, affectedTo := 15, reason := "out of calibration" }

theorem projection_order_independent_invalidation : ∃ first second,
    deliver (run {} [.rebuild "item-1"])
      [⟨deviceSees, 11⟩, ⟨goodSeen "e-3" 30, 31⟩, ⟨deviceFails, 40⟩] = some first ∧
    deliver (run {} [.rebuild "item-1"])
      [⟨deviceFails, 9⟩, ⟨goodSeen "e-3" 30, 31⟩, ⟨deviceSees, 33⟩] = some second ∧
    projectedRows first "item-1" = projectedRows second "item-1" := by
  have hsome : (deliver (run {} [.rebuild "item-1"])
      [⟨deviceSees, 11⟩, ⟨goodSeen "e-3" 30, 31⟩, ⟨deviceFails, 40⟩]).isSome = true := by
    decide +kernel
  have hsome' : (deliver (run {} [.rebuild "item-1"])
      [⟨deviceFails, 9⟩, ⟨goodSeen "e-3" 30, 31⟩, ⟨deviceSees, 33⟩]).isSome = true := by
    decide +kernel
  obtain ⟨first, h⟩ := Option.isSome_iff_exists.mp hsome
  obtain ⟨second, h'⟩ := Option.isSome_iff_exists.mp hsome'
  have hnone : storedEvents (run {} [.rebuild "item-1"]) "item-1" = [] := by decide +kernel
  have hlater : ∀ deliveries, ReceivedLater (run {} [.rebuild "item-1"]) "item-1" deliveries := by
    intro deliveries raw hraw
    rw [hnone] at hraw
    cases hraw
  refine ⟨first, second, h, h', projection_order_independent ⟨{}, [.rebuild "item-1"], ⟨{}, _, rfl⟩, rfl⟩
    (by decide) ?_ (by decide +kernel) (hlater _) (hlater _) h h'⟩
  decide +kernel

end TraceQ.Properties
