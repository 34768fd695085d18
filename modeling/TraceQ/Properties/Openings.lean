import TraceQ.Properties.DeliveryOrder

/-! # How a case began

A case is written once, by the first rebuild whose history lists its key, and no later rebuild goes
back over how it began. So which keys have a case does not depend on the order of delivery, but
which observation opened it does. In the order of the class names nothing is opened, so nothing depends on it.
-/
namespace TraceQ.Properties
open Projections Ingestion Api Quality Tables Results Backend
set_option autoImplicit false
set_option maxHeartbeats 250000

/-! ## Rebuilds and the opening of a case -/

/-- How the open case of a key of the item began. -/
def openingAt (db : Database) (itemId : String) (key : DefectKey) : Option Opening :=
  (caseFiles db (itemId, key)).map (·.opening)

/-- The opening the sightings of the item would give the case of the key. -/
def nextOpening (db : Database) (itemId : String) (key : DefectKey) : Option Opening :=
  (ofKey key (itemSightings db itemId)).head?.map openingOf

theorem nextOpening_isSome {db : Database} {itemId : String} {key : DefectKey} :
    (nextOpening db itemId key).isSome = true ↔
      ∃ raw ∈ storedEvents db itemId, key ∈ reportedKeys raw.payload := by
  rw [← sighted_iff, nextOpening, Option.isSome_map, List.isSome_head?]
  constructor
  · intro hne
    obtain ⟨sighting, hs⟩ := List.exists_mem_of_ne_nil _ hne
    exact ⟨sighting, mem_ofKey.mp hs⟩
  · rintro ⟨sighting, hs⟩
    exact List.ne_nil_of_mem (mem_ofKey.mpr hs)

theorem rebuildItem_opening_other {db db' : Database} (hwf : WellFormed db) {target itemId : String}
    (h : rebuildItem db target = .ok db') (hother : itemId ≠ target) (key : DefectKey) :
    openingAt db' itemId key = openingAt db itemId key := by
  obtain ⟨registered, linked, hsame, hlinked, hsame'⟩ := rebuildItem_links_after hwf h
  rw [openingAt, hsame'.caseFiles, caseFile_after_other (hsame.wellFormed hwf) hlinked hother,
    hsame.caseFiles]
  rfl

/-- A loop that rebuilds the item opens the cases that are missing and leaves the others. -/
theorem rebuilds_opening {targets : List String} {db db' : Database} (hwf : WellFormed db)
    (h : targets.foldlM rebuildItem db = .ok db') (itemId : String) (key : DefectKey) :
    openingAt db' itemId key = (openingAt db itemId key).or
      (if itemId ∈ targets then nextOpening db itemId key else none) := by
  induction targets generalizing db with
  | nil => simp [← Except.ok.inj h]
  | cons target rest ih =>
    obtain ⟨m, hm, hrest⟩ := foldlM_cons_ok.mp h
    have hnext : nextOpening m itemId key = nextOpening db itemId key := by
      rw [nextOpening, nextOpening, itemSightings_of_outside (rebuildItem_outside hwf hm)]
    rw [ih (rebuildItem_wellFormed hwf hm) hrest, hnext]
    by_cases hitem : itemId = target
    · subst hitem
      have hopening : openingAt m itemId key =
          (openingAt db itemId key).or (nextOpening db itemId key) := rebuildItem_opening hwf hm key
      rw [hopening, if_pos List.mem_cons_self, Option.or_assoc]
      split
      · rw [Option.or_self]
      · rw [Option.or_none]
    · rw [rebuildItem_opening_other hwf hm hitem]
      simp [hitem]

theorem rebuilds_grows {targets : List String} {db db' : Database} (hwf : WellFormed db)
    (h : targets.foldlM rebuildItem db = .ok db') : Grows db db' := by
  refine (foldlM_invariant (P := fun m => WellFormed m ∧ Grows db m) ?_ h ⟨hwf, Grows.refl db⟩).2
  rintro target - m n ⟨hm, hgrows⟩ hn
  exact ⟨rebuildItem_wellFormed hm hn, hgrows.trans (rebuildItem_grows hm hn)⟩

/-! ## One delivery -/

/-- An own event that is accepted opens the missing cases of its item, any other delivery of the
item leaves everything as it is. -/
theorem deliverOne_opening {db m : Database} (hwf : WellFormed db) {delivery : Delivery}
    (hm : deliverOne db delivery = some m) {itemId : String} (hitem : itemId ≠ "")
    (hown : delivery.event.itemId = some itemId) :
    m = db ∨ ((storedEvents db itemId).length < (storedEvents m itemId).length ∧
      ∀ key, openingAt m itemId key = (openingAt db itemId key).or (nextOpening m itemId key)) := by
  rcases deliverOne_cases hm with ⟨_, -, -, rfl⟩ | ⟨ingested, haccepted, hloop⟩
  · exact .inl rfl
  · have hwf' := haccepted.wellFormed hwf
    have hout := (rebuilds_outside hwf' hloop).2
    refine .inr ⟨?_, fun key => ?_⟩
    · rw [storedEvents_congr (rawEvents_of_outside hout)]
      rcases haccepted.storedEvents itemId with ⟨-, raw, -, -, hstored⟩ | ⟨hother, -⟩
      · rw [hstored, List.length_append, List.length_singleton]
        exact Nat.lt_succ_self _
      · exact absurd hown hother
    · have hnext : nextOpening ingested itemId key = nextOpening m itemId key := by
        rw [nextOpening, nextOpening, itemSightings_of_outside hout]
      have htarget : itemId ∈ targetsOf db delivery.event := (mem_targetsOf hitem).mpr (.inl hown)
      rw [rebuilds_opening hwf' hloop, if_pos htarget, hnext, openingAt, haccepted.sameCases.caseFiles]
      rfl

theorem deliverOne_grows {db m : Database} (hwf : WellFormed db) {delivery : Delivery}
    (hm : deliverOne db delivery = some m) : Grows db m := by
  rcases deliverOne_cases hm with ⟨_, -, -, rfl⟩ | ⟨ingested, haccepted, hloop⟩
  · exact Grows.refl _
  · exact haccepted.sameCases.grows.trans (rebuilds_grows (haccepted.wellFormed hwf) hloop)

/-! ## Deliveries of one item -/

theorem deliver_grows {db db' : Database} {deliveries : List Delivery} (hdb : Reachable db)
    (h : deliver db deliveries = some db') : Grows db db' := by
  induction deliveries generalizing db with
  | nil => exact Option.some.inj h ▸ Grows.refl _
  | cons first rest ih =>
    obtain ⟨m, hm, hrest⟩ := deliver_cons.mp h
    exact (deliverOne_grows (reachable_sound hdb).toWellFormed hm).trans
      (ih (deliverOne_reachable hdb hm) hrest)

section Item
variable {db db' : Database} {itemId : String} (hitem : itemId ≠ "") {deliveries : List Delivery}
  (hown : ∀ delivery ∈ deliveries, delivery.event.itemId = some itemId) (hdb : Reachable db)
  (h : deliver db deliveries = some db')
include hitem hown hdb h

/-- A case that is open keeps its opening. -/
theorem deliver_keeps_opening {key : DefectKey} {opening : Opening}
    (hopen : openingAt db itemId key = some opening) : openingAt db' itemId key = some opening := by
  induction deliveries generalizing db with
  | nil => exact Option.some.inj h ▸ hopen
  | cons first rest ih =>
    obtain ⟨m, hm, hrest⟩ := deliver_cons.mp h
    refine ih (fun d hd => hown d (List.mem_cons_of_mem _ hd)) (deliverOne_reachable hdb hm) hrest ?_
    rcases deliverOne_opening (reachable_sound hdb).toWellFormed hm hitem (hown first List.mem_cons_self)
      with rfl | ⟨-, hopening⟩
    · exact hopen
    · rw [hopening, hopen, Option.some_or]

/-- Either nothing is stored, or the keys with an open case are the reported ones. -/
theorem deliver_covers
    (hreported : ∀ key, (openingAt db itemId key).isSome = true →
      (nextOpening db itemId key).isSome = true) :
    db' = db ∨ ((storedEvents db itemId).length < (storedEvents db' itemId).length ∧
      ∀ key, (openingAt db' itemId key).isSome = (nextOpening db' itemId key).isSome) := by
  induction deliveries generalizing db with
  | nil => exact .inl (Option.some.inj h).symm
  | cons first rest ih =>
    obtain ⟨m, hm, hrest⟩ := deliver_cons.mp h
    have hwf := (reachable_sound hdb).toWellFormed
    have ih' := ih (fun d hd => hown d (List.mem_cons_of_mem _ hd)) (deliverOne_reachable hdb hm) hrest
    rcases deliverOne_opening hwf hm hitem (hown first List.mem_cons_self) with rfl | ⟨hlength, hopening⟩
    · exact ih' hreported
    · -- what was reported before still is, so after the rebuild open and reported are the same
      have hcovered : ∀ key, (openingAt m itemId key).isSome = (nextOpening m itemId key).isSome := by
        intro key
        rw [hopening, Option.isSome_or, Bool.or_eq_right_iff_imp]
        intro hopen
        obtain ⟨raw, hraw, hkey⟩ := nextOpening_isSome.mp (hreported key hopen)
        have hkept := storedEvents_prefix (deliverOne_keeps hwf hm).2.2 itemId
        exact nextOpening_isSome.mpr ⟨raw, hkept.subset hraw, hkey⟩
      rcases ih' fun key hopen => hcovered key ▸ hopen with rfl | ⟨hgrows, hfinal⟩
      · exact .inr ⟨hlength, hcovered⟩
      · exact .inr ⟨hlength.trans hgrows, hfinal⟩

/-- A case that is open in the end was opened by the first delivery after whose rebuild the history
lists its key. -/
theorem deliver_opens {key : DefectKey} {opening : Opening} (hnone : openingAt db itemId key = none)
    (hopen : openingAt db' itemId key = some opening) :
    ∃ front delivery rest before after, deliveries = front ++ delivery :: rest ∧
      deliver db front = some before ∧ deliverOne before delivery = some after ∧
      openingAt before itemId key = none ∧ nextOpening after itemId key = some opening := by
  induction deliveries generalizing db with
  | nil =>
    rw [← Option.some.inj h, hnone] at hopen
    cases hopen
  | cons first rest ih =>
    obtain ⟨m, hm, hrest⟩ := deliver_cons.mp h
    have hdbm := deliverOne_reachable hdb hm
    have hown' : ∀ d ∈ rest, d.event.itemId = some itemId := fun d hd => hown d (List.mem_cons_of_mem _ hd)
    cases hfirst : openingAt m itemId key with
    | none =>
      obtain ⟨front, delivery, tail, before, after, rfl, hfront, hafter⟩ := ih hown' hdbm hrest hfirst
      exact ⟨first :: front, delivery, tail, before, after, rfl, deliver_cons.mpr ⟨m, hm, hfront⟩, hafter⟩
    | some old =>
      obtain rfl : old = opening := by
        have hkept := deliver_keeps_opening hitem hown' hdbm hrest hfirst
        exact Option.some.inj (hkept.symm.trans hopen)
      refine ⟨[], first, rest, db, m, rfl, rfl, hm, hnone, ?_⟩
      rcases deliverOne_opening (reachable_sound hdb).toWellFormed hm hitem (hown first List.mem_cons_self)
        with rfl | ⟨-, hopening⟩
      · rw [hnone] at hfirst
        cases hfirst
      · rw [← hfirst, hopening, hnone, Option.none_or]

end Item

/-! ## Two orders of delivery -/

/-- The rebuild after some delivery was the first to list the key, and the sighting comes first in
its history. -/
def OpenedAfter (db : Database) (itemId : String) (deliveries : List Delivery) (key : DefectKey)
    (sighting : Sighting) : Prop :=
  ∃ front delivery rest before after, deliveries = front ++ delivery :: rest ∧
    deliver db front = some before ∧ deliverOne before delivery = some after ∧
    (∀ o ∈ before.defectOccurrences, o.itemId = itemId → o.key ≠ key) ∧
    (ofKey key (itemSightings after itemId)).head? = some sighting

/-- What the deliveries leave of the cases of the item. -/
structure Openings (db : Database) (itemId : String) (deliveries : List Delivery) (db' : Database) :
    Prop where
  opened : ∀ o ∈ db'.defectOccurrences, o.itemId = itemId → o.status = .opened
  one_per_key : ∀ a ∈ db'.defectOccurrences, ∀ b ∈ db'.defectOccurrences, a.itemId = itemId →
    b.itemId = itemId → a.key = b.key → a = b
  facts : ∀ o ∈ db'.defectOccurrences, o.itemId = itemId → ∃ n ∈ db'.nonconformances,
    n.occurrenceId = o.id ∧ (∀ other ∈ db'.nonconformances, other.occurrenceId = o.id → other = n) ∧
    ∃ sighting, OpenedAfter db itemId deliveries o.key sighting ∧
      o.firstObservationId = ⟨sighting.observation.eventId⟩ ∧ o.openedAt = sighting.occurredAt ∧
      n.verdict = openingVerdict sighting.observation.trustStatus

theorem openingAt_isSome {db : Database} (h : WellFormed db) {itemId : String} {key : DefectKey} :
    (openingAt db itemId key).isSome = true ↔
      ∃ o ∈ db.defectOccurrences, o.itemId = itemId ∧ o.key = key ∧ o.status = .opened := by
  rw [openingAt, Option.isSome_map, caseFiles_isSome h]

/-- The opening of an open case is in its rows. -/
theorem openingAt_of_open {db : Database} (h : WellFormed db) {o : DefectOccurrence}
    {n : Nonconformance} (ho : o ∈ db.defectOccurrences) (hopen : o.status = .opened)
    (hn : n ∈ db.nonconformances) (hid : n.occurrenceId = o.id) :
    openingAt db o.itemId o.key = some ⟨o.firstObservationId, o.openedAt, n.verdict⟩ := by
  have hfind := (findOpenOccurrence_iff h).mpr ⟨ho, rfl, rfl, hopen⟩
  have hncr := (findNcr_iff h).mpr ⟨hn, hid⟩
  simp [openingAt, caseFiles, hfind, fileOf, hncr]

theorem nextOpening_eq_some {db : Database} {itemId : String} {key : DefectKey} {opening : Opening} :
    nextOpening db itemId key = some opening ↔ ∃ sighting,
      (ofKey key (itemSightings db itemId)).head? = some sighting ∧ openingOf sighting = opening :=
  Option.map_eq_some_iff

/-- An item without cases only gets open ones. -/
theorem opened_of_grows {db db' : Database} (hgrows : Grows db db') {itemId : String}
    (hnone : ∀ o ∈ db.defectOccurrences, o.itemId ≠ itemId) {o : DefectOccurrence}
    (ho : o ∈ db'.defectOccurrences) (hoitem : o.itemId = itemId) : o.status = .opened := by
  obtain ⟨fresh, hrows, hfresh⟩ := hgrows.occurrences
  have hmem : fixedOccurrence o ∈ db.defectOccurrences.map fixedOccurrence ++ fresh :=
    hrows ▸ List.mem_map_of_mem ho
  rcases List.mem_append.mp hmem with hold | hnew
  · obtain ⟨old, hold, hfixed⟩ := List.mem_map.mp hold
    have hsame : old.itemId = o.itemId := (congrArg DefectOccurrence.itemId hfixed :)
    exact absurd (hsame.trans hoitem) (hnone old hold)
  · exact (hfresh _ hnew).1

theorem openingAt_none {db : Database} {itemId : String}
    (hnone : ∀ o ∈ db.defectOccurrences, o.itemId ≠ itemId) (key : DefectKey) :
    openingAt db itemId key = none := by
  have hfind : findOpenOccurrence db itemId key = none :=
    findOpenOccurrence_none.mpr fun o ho hall => hnone o ho hall.1
  rw [openingAt, caseFiles, hfind]
  rfl

section Run
variable {db db' : Database} (hdb : Reachable db) {itemId : String} (hitem : itemId ≠ "")
  (hnone : ∀ o ∈ db.defectOccurrences, o.itemId ≠ itemId) {deliveries : List Delivery}
  (hown : ∀ delivery ∈ deliveries, delivery.event.itemId = some itemId)
  (h : deliver db deliveries = some db')
include hdb hitem hnone hown h

theorem deliver_openings : Openings db itemId deliveries db' := by
  have hwf' := (reachable_sound (deliver_reachable hdb h)).toWellFormed
  have hopened : ∀ o ∈ db'.defectOccurrences, o.itemId = itemId → o.status = .opened :=
    fun o ho => opened_of_grows (deliver_grows hdb h) hnone ho
  refine ⟨hopened, fun a ha b hb hai hbi hkey => ?_, fun o ho hoitem => ?_⟩
  · exact hwf'.open_unique a ha b hb ⟨hopened a ha hai, hopened b hb hbi, hai.trans hbi.symm, hkey⟩
  · obtain ⟨n, hn, hid⟩ := hwf'.ncr_of_occurrence o ho
    have hopening := openingAt_of_open hwf' ho (hopened o ho hoitem) hn hid
    rw [hoitem] at hopening
    obtain ⟨front, delivery, rest, before, after, rfl, hbefore, hafter, hnot, hnext⟩ :=
      deliver_opens hitem hown hdb h (openingAt_none hnone o.key) hopening
    obtain ⟨sighting, hhead, hfacts⟩ := nextOpening_eq_some.mp hnext
    obtain ⟨hfirst, htime, hverdict⟩ := Opening.mk.inj hfacts
    refine ⟨n, hn, hid, fun other hother hsame => ?_, sighting, ?_, hfirst.symm, htime.symm, hverdict.symm⟩
    · exact eq_of_nodup_map hwf'.ncr_occurrences hother hn (hsame.trans hid.symm)
    · refine ⟨front, delivery, rest, before, after, rfl, hbefore, hafter, fun o' ho' hi hk => ?_, hhead⟩
      have hstatus := opened_of_grows (deliver_grows hdb hbefore) hnone ho' hi
      have hwfb := (reachable_sound (deliver_reachable hdb hbefore)).toWellFormed
      have hsome := (openingAt_isSome hwfb).mpr ⟨o', ho', hi, hk, hstatus⟩
      rw [hnot] at hsome
      cases hsome

/-- The item has a case of a key exactly when some stored event of it reports the key, unless none
of its events is stored by the deliveries. -/
theorem deliver_has_case : db' = db ∨
    ((storedEvents db itemId).length < (storedEvents db' itemId).length ∧
      ∀ key, (∃ o ∈ db'.defectOccurrences, o.itemId = itemId ∧ o.key = key) ↔
        ∃ raw ∈ storedEvents db' itemId, key ∈ reportedKeys raw.payload) := by
  have hwf' := (reachable_sound (deliver_reachable hdb h)).toWellFormed
  have hopened : ∀ o ∈ db'.defectOccurrences, o.itemId = itemId → o.status = .opened :=
    fun o ho => opened_of_grows (deliver_grows hdb h) hnone ho
  have hreported : ∀ key, (openingAt db itemId key).isSome = true →
      (nextOpening db itemId key).isSome = true := by
    intro key hopen
    rw [openingAt_none hnone key] at hopen
    cases hopen
  refine (deliver_covers hitem hown hdb h hreported).imp_right (And.imp_right fun hcovers key => ?_)
  rw [← nextOpening_isSome, ← hcovers, openingAt_isSome hwf']
  constructor
  · rintro ⟨o, ho, hi, hk⟩
    exact ⟨o, ho, hi, hk, hopened o ho hi⟩
  · rintro ⟨o, ho, hi, hk, -⟩
    exact ⟨o, ho, hi, hk⟩

end Run

/-- In whatever order the events of an item without cases are delivered, the same keys get a case,
one each, and each case keeps the opening of the first rebuild that listed its key. -/
theorem opening_facts {db first second : Database} (hdb : Reachable db) {itemId : String}
    (hitem : itemId ≠ "") (hnone : ∀ o ∈ db.defectOccurrences, o.itemId ≠ itemId)
    {deliveries deliveries' : List Delivery}
    (hown : ∀ delivery ∈ deliveries, delivery.event.itemId = some itemId)
    (hperm : (deliveries.map (·.event)).Perm (deliveries'.map (·.event)))
    (hdistinct : (deliveries.map fun d => businessTriple d.event).Nodup)
    (h : deliver db deliveries = some first) (h' : deliver db deliveries' = some second) :
    (∀ key, (∃ o ∈ first.defectOccurrences, o.itemId = itemId ∧ o.key = key) ↔
      ∃ o ∈ second.defectOccurrences, o.itemId = itemId ∧ o.key = key) ∧
    Openings db itemId deliveries first ∧ Openings db itemId deliveries' second := by
  have hown' : ∀ delivery ∈ deliveries', delivery.event.itemId = some itemId := by
    intro delivery hdelivery
    obtain ⟨d, hd, hevent⟩ := List.mem_map.mp (hperm.mem_iff.mpr (List.mem_map_of_mem hdelivery))
    rw [← hevent]
    exact hown d hd
  have hall : ∀ {ds : List Delivery}, (∀ d ∈ ds, d.event.itemId = some itemId) →
      ownDeliveries itemId ds = ds := by
    intro ds hds
    exact List.filter_eq_self.mpr fun d hd => decide_eq_true (hds d hd)
  have hdistinct' : (deliveries'.map fun d => businessTriple d.event).Nodup := by
    have htriples := hperm.map businessTriple
    rw [List.map_map, List.map_map] at htriples
    exact htriples.nodup_iff.mp hdistinct
  obtain ⟨new, hstored, hnew⟩ := deliver_stored hdb h (by rwa [hall hown])
  obtain ⟨new', hstored', hnew'⟩ := deliver_stored hdb h' (by rwa [hall hown'])
  have hadded := new_events_perm hperm hnew hnew'
  have hlength : new.length = new'.length := by
    have hlen := hadded.length_eq
    rwa [List.length_map, List.length_map] at hlen
  refine ⟨fun key => ?_, deliver_openings hdb hitem hnone hown h, deliver_openings hdb hitem hnone hown' h'⟩
  have hsame : (storedEvents first itemId).length = (storedEvents second itemId).length := by
    rw [hstored, hstored', List.length_append, List.length_append, hlength]
  rcases deliver_has_case hdb hitem hnone hown h with rfl | ⟨hmore, hkeys⟩ <;>
    rcases deliver_has_case hdb hitem hnone hown' h' with rfl | ⟨hmore', hkeys'⟩
  · exact Iff.rfl
  · exact absurd hsame hmore'.ne
  · exact absurd hsame hmore.ne'
  · -- the stored events are the same up to their order
    rw [hkeys, hkeys', hstored, hstored']
    have hevent : ∀ {added : List RawEvent}, (∃ raw ∈ storedEvents db itemId ++ added,
        key ∈ reportedKeys raw.payload) ↔ (∃ raw ∈ storedEvents db itemId,
          key ∈ reportedKeys raw.payload) ∨ ∃ event ∈ added.map (·.event), key ∈ reportedKeys event.payload := by
      intro added
      simp only [List.mem_append, or_and_right, exists_or, List.mem_map, exists_exists_and_eq_and]
    rw [hevent, hevent]
    simp only [hadded.mem_iff]

/-! ## In the order of the class names -/

/-- Every event is ingested, and the item rebuilt after it. -/
def delivered (db : Database) (itemId : String) (deliveries : List Delivery) : Database :=
  run db (deliveries.flatMap fun d => [.ingest d.event d.receivedAt, .rebuild itemId])

/-- No open case of the item began otherwise than with its earliest sighting in business order. -/
def OpenedByFirst (db : Database) (itemId : String) : Prop :=
  ∀ key opening, openingAt db itemId key = some opening → nextOpening db itemId key = some opening

/-- The open case a call leaves was open before it. -/
theorem keepsCases_openingAt {db db' : Database} (h : KeepsCases db db') {itemId : String}
    (hnone : ∀ o ∈ db.defectOccurrences, o.itemId ≠ itemId) (key : DefectKey) : openingAt db' itemId key = none := by
  have hfind : findOpenOccurrence db' itemId key = none :=
    findOpenOccurrence_none.mpr fun o ho hall => hnone o (h.stillOpen o ho hall.2.2) hall.1
  rw [openingAt, caseFiles, hfind]
  rfl

/-- With the observations inserted first, the later of two scratches opens the case when it is delivered first. -/
example : (deliver (run parentsFirst [.rebuild "item-1"])
        [⟨scratchSeen "e-1" 10, 11⟩, ⟨scratchSeen "e-2" 30, 31⟩]).map
          (fun db => (openingAt db "item-1" ⟨"scratch", none⟩).map (·.openedAt)) = some (some 10) ∧
      (deliver (run parentsFirst [.rebuild "item-1"])
        [⟨scratchSeen "e-2" 30, 31⟩, ⟨scratchSeen "e-1" 10, 32⟩]).map
          (fun db => (openingAt db "item-1" ⟨"scratch", none⟩).map (·.openedAt)) = some (some 30) := by
  decide +kernel

end TraceQ.Properties
