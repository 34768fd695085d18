import TraceQ.Api.Routes
import TraceQ.Library.Results

/-! # What the route endpoints do

The invariant of the route tables, and what each endpoint does to it and to the steps: creating a revision keeps
it, a direct activation supersedes the former active revision, an activating import does not.
-/
namespace TraceQ.Api
open Quality Tables Results
set_option autoImplicit false
set_option maxHeartbeats 250000

/-! ## Valid routes -/

structure RoutesValid (t : RouteTables) : Prop where
  routeIds : (t.routes.map (·.id)).Nodup
  revisionIds : (t.revisions.map (·.id)).Nodup
  routeFresh : ∀ route ∈ t.routes, route.id < t.nextId
  revisionFresh : ∀ revision ∈ t.revisions, revision.id < t.nextId
  owned : ∀ revision ∈ t.revisions, ∃ route ∈ t.routes, route.id = revision.routeId
  stepFresh : ∀ step ∈ t.steps, step.routeRevisionId < t.nextId
  numbered : ∀ routeId, (revisionsOf t routeId).map (·.revision) =
    List.range' 1 (revisionsOf t routeId).length
  positions : ∀ revisionId, (stepsOf t revisionId).map (·.position) =
    List.range' 1 (stepsOf t revisionId).length
  immutable : ∀ revision ∈ t.revisions, revision.status ≠ .draft → revision.immutableAfter.isSome = true
  active : ∀ route ∈ t.routes, ∀ revision ∈ t.revisions, revision.routeId = route.id →
    (revision.status = .active ↔ route.activeRevisionId = some revision.id)
  named : ∀ route ∈ t.routes, ∀ id, route.activeRevisionId = some id →
    ∃ revision ∈ t.revisions, revision.id = id ∧ revision.routeId = route.id

theorem routesValid_empty : RoutesValid {} := by
  constructor <;> simp [revisionsOf, stepsOf]

/-! ## Creating -/

theorem routeOr404_ok {t : RouteTables} {routeId : Uuid} {entity : String} {route : Route}
    (h : routeOr404 t routeId entity = .ok route) : route ∈ t.routes ∧ route.id = routeId := by
  unfold routeOr404 at h
  split at h
  · rename_i found hfound
    cases h
    exact ⟨List.mem_of_find?_eq_some hfound, by simpa using List.find?_some hfound⟩
  · cases h

theorem addRoute_valid {t : RouteTables} (h : RoutesValid t) (code name : String) :
    RoutesValid (addRoute t (newRoute t code name)) := by
  have hroute : ∀ route ∈ (addRoute t (newRoute t code name)).routes,
      route ∈ t.routes ∨ route = newRoute t code name := by
    intro route hroute
    simpa [addRoute] using hroute
  have hnext : t.nextId ≤ (addRoute t (newRoute t code name)).nextId := Nat.le_succ _
  refine
    { routeIds := nodup_map_append h.routeIds fun route hmem => (h.routeFresh route hmem).ne
      revisionIds := h.revisionIds
      routeFresh := ?_
      revisionFresh := fun revision hmem => (h.revisionFresh revision hmem).trans_le hnext
      owned := ?_
      stepFresh := fun step hmem => (h.stepFresh step hmem).trans_le hnext
      numbered := h.numbered
      positions := h.positions
      immutable := h.immutable
      active := ?_
      named := ?_ }
  · intro route hmem
    rcases hroute route hmem with hold | rfl
    · exact (h.routeFresh route hold).trans_le hnext
    · exact Nat.lt_succ_self _
  · intro revision hmem
    obtain ⟨route, hold, hid⟩ := h.owned revision hmem
    exact ⟨route, List.mem_append_left _ hold, hid⟩
  · intro route hmem revision hrevision hid
    rcases hroute route hmem with hold | rfl
    · exact h.active route hold revision hrevision hid
    · -- no revision belongs to a route that is yet to be created
      obtain ⟨owner, howner, hownerId⟩ := h.owned revision hrevision
      exact absurd (hownerId.trans hid) (h.routeFresh owner howner).ne
  · intro route hmem id hactive
    rcases hroute route hmem with hold | rfl
    · exact h.named route hold id hactive
    · cases hactive

theorem foldl_max_range' (n : ℕ) : (List.range' 1 n).foldl max 0 = n := by
  induction n with
  | zero => rfl
  | succ n ih =>
    rw [List.range'_concat, List.foldl_append, ih]
    simp only [List.foldl_cons, List.foldl_nil]
    omega

theorem stepRows_owner {revisionId : Uuid} {steps : List StepInput} {step : Step}
    (h : step ∈ stepRows revisionId steps) : step.routeRevisionId = revisionId := by
  obtain ⟨entry, -, rfl⟩ := List.mem_map.mp h
  rfl

theorem stepRows_positions (revisionId : Uuid) (steps : List StepInput) :
    (stepRows revisionId steps).map (·.position) = List.range' 1 (stepRows revisionId steps).length := by
  have hpositions : (stepRows revisionId steps).map (·.position) = (steps.zipIdx 1).map Prod.snd := by
    rw [stepRows, List.map_map]
    rfl
  rw [hpositions, List.zipIdx_map_snd]
  simp [stepRows]

/-- The tables after `_create_revision`. -/
def withRevision (t : RouteTables) (routeId : Uuid) (steps : List StepInput) (userId : Uuid) : RouteTables :=
  { t with
    revisions := t.revisions ++ [newRevision t routeId userId]
    steps := t.steps ++ stepRows t.nextId steps
    nextId := t.nextId + 1 }

theorem createRevisionOf_ok {t t' : RouteTables} {routeId userId : Uuid} {steps : List StepInput}
    {revision : Revision} (h : createRevisionOf t routeId steps userId = .ok (t', revision)) :
    t' = withRevision t routeId steps userId ∧ revision = newRevision t routeId userId := by
  obtain ⟨_, -, h⟩ := bind_ok.mp h
  obtain ⟨ht, hrevision⟩ := pair_ok.mp h
  exact ⟨ht.symm, hrevision.symm⟩

theorem stepsOf_withRevision {t : RouteTables} (h : RoutesValid t) {routeId userId : Uuid}
    {steps : List StepInput} (revisionId : Uuid) :
    stepsOf (withRevision t routeId steps userId) revisionId =
      if revisionId = t.nextId then stepRows t.nextId steps else stepsOf t revisionId := by
  rw [stepsOf, withRevision, List.filter_append]
  split
  · rename_i hid
    have hnone : t.steps.filter (fun step => decide (step.routeRevisionId = revisionId)) = [] := by
      rw [List.filter_eq_nil_iff]
      intro step hstep hsame
      rw [decide_eq_true_eq, hid] at hsame
      exact (h.stepFresh step hstep).ne hsame
    have hall : (stepRows t.nextId steps).filter (fun step => decide (step.routeRevisionId = revisionId)) =
        stepRows t.nextId steps := by
      rw [List.filter_eq_self]
      intro step hstep
      rw [decide_eq_true_eq, stepRows_owner hstep, hid]
    rw [hnone, hall, List.nil_append]
  · rename_i hid
    have hnone : (stepRows t.nextId steps).filter
        (fun step => decide (step.routeRevisionId = revisionId)) = [] := by
      rw [List.filter_eq_nil_iff]
      intro step hstep hsame
      rw [decide_eq_true_eq, stepRows_owner hstep] at hsame
      exact hid hsame.symm
    rw [hnone, List.append_nil, stepsOf]

theorem withRevision_valid {t : RouteTables} (h : RoutesValid t) {route : Route} (hroute : route ∈ t.routes)
    (steps : List StepInput) (userId : Uuid) : RoutesValid (withRevision t route.id steps userId) := by
  have hrevision : ∀ revision ∈ (withRevision t route.id steps userId).revisions,
      revision ∈ t.revisions ∨ revision = newRevision t route.id userId := by
    intro revision hmem
    simpa [withRevision] using hmem
  have hnext : t.nextId ≤ (withRevision t route.id steps userId).nextId := Nat.le_succ _
  refine
    { routeIds := h.routeIds
      revisionIds := nodup_map_append h.revisionIds fun revision hmem =>
        (h.revisionFresh revision hmem).ne
      routeFresh := fun other hmem => (h.routeFresh other hmem).trans_le hnext
      revisionFresh := ?_
      owned := ?_
      stepFresh := ?_
      numbered := ?_
      positions := ?_
      immutable := ?_
      active := ?_
      named := ?_ }
  · intro revision hmem
    rcases hrevision revision hmem with hold | rfl
    · exact (h.revisionFresh revision hold).trans_le hnext
    · exact Nat.lt_succ_self _
  · intro revision hmem
    rcases hrevision revision hmem with hold | rfl
    · exact h.owned revision hold
    · exact ⟨route, hroute, rfl⟩
  · intro step hmem
    rcases List.mem_append.mp hmem with hold | hnew
    · exact (h.stepFresh step hold).trans_le hnext
    · rw [stepRows_owner hnew]
      exact Nat.lt_succ_self _
  · intro routeId
    have hrows : revisionsOf (withRevision t route.id steps userId) routeId =
        revisionsOf t routeId ++ if route.id = routeId then [newRevision t route.id userId] else [] := by
      rw [revisionsOf, withRevision, List.filter_append, ← revisionsOf]
      by_cases hid : route.id = routeId <;> simp [hid, newRevision]
    rw [hrows]
    split
    · rename_i hid
      have hcurrent : currentRevision t route.id = (revisionsOf t route.id).length := by
        rw [currentRevision, h.numbered route.id, foldl_max_range']
      subst hid
      rw [List.map_append, h.numbered, List.length_append, List.length_singleton, List.range'_concat]
      simp [newRevision, hcurrent, Nat.add_comm]
    · rw [List.append_nil]
      exact h.numbered routeId
  · intro revisionId
    rw [stepsOf_withRevision h]
    split
    · exact stepRows_positions _ _
    · exact h.positions revisionId
  · intro revision hmem hstatus
    rcases hrevision revision hmem with hold | rfl
    · exact h.immutable revision hold hstatus
    · exact absurd rfl hstatus
  · intro other hother revision hmem hid
    rcases hrevision revision hmem with hold | rfl
    · exact h.active other hother revision hold hid
    · refine iff_of_false nofun fun hactive => ?_
      obtain ⟨named, hnamed, hnamedId, -⟩ := h.named other hother _ hactive
      exact (h.revisionFresh named hnamed).ne hnamedId
  · intro other hother id hactive
    obtain ⟨revision, hmem, hid⟩ := h.named other hother id hactive
    exact ⟨revision, List.mem_append_left _ hmem, hid⟩

/-! ## Activating -/

/-- An `UPDATE` that the trigger lets pass writes the row, which may be what it was. -/
theorem updateRevision_ok {t t' : RouteTables} {old new : Revision}
    (hids : (t.revisions.map (·.id)).Nodup) (hold : old ∈ t.revisions)
    (h : updateRevision t old new = .ok t') :
    t' = { t with
      revisions := modifyWhere (fun row => decide (row.id = old.id)) (fun _ => new) t.revisions } := by
  unfold updateRevision at h
  split at h
  · rename_i hsame
    have hrows : modifyWhere (fun row => decide (row.id = old.id)) (fun _ => new) t.revisions =
        t.revisions := by
      rw [modifyWhere_eq_self]
      intro row hrow hid
      rw [decide_eq_true_eq] at hid
      rw [hsame, eq_of_nodup_map hids hrow hold hid]
    rw [hrows]
    exact (Except.ok.inj h).symm
  · split at h
    · exact (Except.ok.inj h).symm
    · cases h

/-- The revisions of the route are rewritten so that `revision` is the active one; the others stay. -/
structure Activates (t : RouteTables) (route : Route) (revision : Revision) (g : Revision → Revision) :
    Prop where
  found : route ∈ t.routes
  owned : revision ∈ t.revisions ∧ revision.routeId = route.id
  identity : ∀ row ∈ t.revisions, (g row).id = row.id ∧ (g row).routeId = row.routeId ∧
    (g row).revision = row.revision
  others : ∀ row ∈ t.revisions, row.routeId ≠ route.id → g row = row
  active : ∀ row ∈ t.revisions, row.routeId = route.id →
    ((g row).status = .active ↔ row.id = revision.id)
  immutable : ∀ row ∈ t.revisions, (g row).status ≠ .draft → (g row).immutableAfter.isSome = true

theorem setActive_valid {t : RouteTables} (h : RoutesValid t) {route : Route} {revision : Revision}
    {g : Revision → Revision} (hg : Activates t route revision g) :
    RoutesValid (setActive { t with revisions := t.revisions.map g } route.id revision.id) := by
  have hroute : ∀ other ∈ (setActive { t with revisions := t.revisions.map g } route.id
      revision.id).routes, ∃ old ∈ t.routes, other.id = old.id ∧
        other.activeRevisionId = if old.id = route.id then some revision.id else old.activeRevisionId := by
    intro other hother
    obtain ⟨old, hold, rfl⟩ := mem_modifyWhere.mp hother
    refine ⟨old, hold, ?_⟩
    by_cases hid : old.id = route.id <;> simp [hid]
  have hrouteIds : (setActive { t with revisions := t.revisions.map g } route.id
      revision.id).routes.map (·.id) = t.routes.map (·.id) := by
    refine map_modifyWhere ?_ t.routes
    exact fun _ => rfl
  have hids : (t.revisions.map g).map (·.id) = t.revisions.map (·.id) := by
    rw [List.map_map]
    exact List.map_congr_left fun row hrow => (hg.identity row hrow).1
  refine
    { routeIds := hrouteIds ▸ h.routeIds
      revisionIds := ?_
      routeFresh := ?_
      revisionFresh := ?_
      owned := ?_
      stepFresh := h.stepFresh
      numbered := ?_
      positions := h.positions
      immutable := ?_
      active := ?_
      named := ?_ }
  · show ((t.revisions.map g).map (·.id)).Nodup
    rw [hids]
    exact h.revisionIds
  · intro other hother
    obtain ⟨old, hold, hid, -⟩ := hroute other hother
    rw [hid]
    exact h.routeFresh old hold
  · intro row hrow
    obtain ⟨old, hold, rfl⟩ := List.mem_map.mp hrow
    rw [(hg.identity old hold).1]
    exact h.revisionFresh old hold
  · intro row hrow
    obtain ⟨old, hold, rfl⟩ := List.mem_map.mp hrow
    obtain ⟨owner, howner, hid⟩ := h.owned old hold
    have hmem : owner.id ∈ (setActive { t with revisions := t.revisions.map g } route.id
        revision.id).routes.map (·.id) := hrouteIds ▸ List.mem_map_of_mem howner
    obtain ⟨other, hother, hotherId⟩ := List.mem_map.mp hmem
    exact ⟨other, hother, by rw [hotherId, hid, (hg.identity old hold).2.1]⟩
  · intro routeId
    have hrows : (revisionsOf (setActive { t with revisions := t.revisions.map g } route.id revision.id)
        routeId).map (·.revision) = (revisionsOf t routeId).map (·.revision) := by
      simp only [revisionsOf, setActive, List.filter_map, List.map_map]
      have hfilter : t.revisions.filter ((fun row => decide (row.routeId = routeId)) ∘ g) =
          t.revisions.filter fun row => decide (row.routeId = routeId) := by
        refine List.filter_congr fun row hrow => ?_
        rw [Function.comp_apply, (hg.identity row hrow).2.1]
      rw [hfilter]
      exact List.map_congr_left fun row hrow => (hg.identity row (List.mem_of_mem_filter hrow)).2.2
    have hlength := congrArg List.length hrows
    rw [List.length_map, List.length_map] at hlength
    rw [hrows, hlength]
    exact h.numbered routeId
  · intro row hrow hstatus
    obtain ⟨old, hold, rfl⟩ := List.mem_map.mp hrow
    exact hg.immutable old hold hstatus
  · intro other hother row hrow howns
    obtain ⟨owner, howner, hid, hactive⟩ := hroute other hother
    obtain ⟨old, hold, rfl⟩ := List.mem_map.mp hrow
    rw [(hg.identity old hold).2.1, hid] at howns
    rw [hactive, (hg.identity old hold).1]
    split
    · rename_i hsame
      rw [hg.active old hold (howns.trans hsame), Option.some.injEq, eq_comm]
    · rename_i hother
      rw [hg.others old hold (howns ▸ hother)]
      exact h.active owner howner old hold howns
  · intro other hother id hactive
    obtain ⟨owner, howner, hid, heq⟩ := hroute other hother
    rw [heq] at hactive
    split at hactive
    · rename_i hsame
      obtain rfl := Option.some.inj hactive
      have hidentity := hg.identity revision hg.owned.1
      exact ⟨g revision, List.mem_map_of_mem hg.owned.1, hidentity.1,
        by rw [hidentity.2.1, hg.owned.2, hid, hsame]⟩
    · obtain ⟨named, hnamed, hnamedId, howns⟩ := h.named owner howner id hactive
      have hidentity := hg.identity named hnamed
      exact ⟨g named, List.mem_map_of_mem hnamed, hidentity.1.trans hnamedId,
        by rw [hidentity.2.1, howns, hid]⟩

/-- A revision is activated where no other one of the route is active. -/
theorem activates_only {t : RouteTables} (h : RoutesValid t) {route : Route} (hroute : route ∈ t.routes)
    {revision : Revision} (hrevision : revision ∈ t.revisions) (howns : revision.routeId = route.id)
    (hnone : ∀ row ∈ t.revisions, row.routeId = route.id → row.id ≠ revision.id → row.status ≠ .active)
    (now : Instant) :
    Activates t route revision fun row =>
      if row.id = revision.id then activated revision now else row := by
  refine ⟨hroute, ⟨hrevision, howns⟩, fun row hrow => ?_, fun row hrow hother => ?_,
    fun row hrow hown => ?_, fun row hrow => ?_⟩
  · by_cases hid : row.id = revision.id
    · rw [if_pos hid, eq_of_nodup_map h.revisionIds hrow hrevision hid]
      exact ⟨rfl, rfl, rfl⟩
    · rw [if_neg hid]
      exact ⟨rfl, rfl, rfl⟩
  · rw [if_neg]
    intro hid
    exact hother (eq_of_nodup_map h.revisionIds hrow hrevision hid ▸ howns)
  · by_cases hid : row.id = revision.id
    · rw [if_pos hid]
      exact iff_of_true rfl hid
    · rw [if_neg hid]
      exact iff_of_false (hnone row hrow hown hid) hid
  · by_cases hid : row.id = revision.id
    · rw [if_pos hid]
      exact fun _ => rfl
    · rw [if_neg hid]
      exact h.immutable row hrow

theorem activates_after {t : RouteTables} (h : RoutesValid t) {route : Route} (hroute : route ∈ t.routes)
    {revision : Revision} (hrevision : revision ∈ t.revisions) (howns : revision.routeId = route.id)
    {old : Revision} (hold : old ∈ t.revisions) (hactive : route.activeRevisionId = some old.id)
    (hne : old.id ≠ revision.id) (now : Instant) :
    Activates t route revision fun row =>
      if row.id = revision.id then activated revision now
      else if row.id = old.id then { old with status := .superseded } else row := by
  obtain ⟨named, hnamed, hnamedId, holdOwns⟩ := h.named route hroute old.id hactive
  obtain rfl := eq_of_nodup_map h.revisionIds hnamed hold hnamedId
  refine ⟨hroute, ⟨hrevision, howns⟩, fun row hrow => ?_, fun row hrow hother => ?_,
    fun row hrow hown => ?_, fun row hrow => ?_⟩
  · by_cases hid : row.id = revision.id
    · rw [if_pos hid, eq_of_nodup_map h.revisionIds hrow hrevision hid]
      exact ⟨rfl, rfl, rfl⟩
    · rw [if_neg hid]
      by_cases hformer : row.id = named.id
      · rw [if_pos hformer, eq_of_nodup_map h.revisionIds hrow hold hformer]
        exact ⟨rfl, rfl, rfl⟩
      · rw [if_neg hformer]
        exact ⟨rfl, rfl, rfl⟩
  · rw [if_neg, if_neg]
    · intro hid
      exact hother (eq_of_nodup_map h.revisionIds hrow hold hid ▸ holdOwns)
    · intro hid
      exact hother (eq_of_nodup_map h.revisionIds hrow hrevision hid ▸ howns)
  · by_cases hid : row.id = revision.id
    · rw [if_pos hid]
      exact iff_of_true rfl hid
    · rw [if_neg hid]
      refine iff_of_false ?_ hid
      by_cases hformer : row.id = named.id
      · rw [if_pos hformer]
        nofun
      · rw [if_neg hformer, h.active route hroute row hrow hown, hactive, Option.some.injEq]
        exact Ne.symm hformer
  · by_cases hid : row.id = revision.id
    · rw [if_pos hid]
      exact fun _ => rfl
    · rw [if_neg hid]
      by_cases hformer : row.id = named.id
      · rw [if_pos hformer]
        intro _
        have hstatus := (h.active route hroute named hold holdOwns).mpr hactive
        exact h.immutable named hold (by rw [hstatus]; decide)
      · rw [if_neg hformer]
        exact h.immutable row hrow

theorem revisionOr404_ok {t : RouteTables} {revisionId routeId : Uuid} {revision : Revision}
    (h : revisionOr404 t revisionId routeId = .ok revision) :
    revision ∈ t.revisions ∧ revision.id = revisionId ∧ revision.routeId = routeId := by
  unfold revisionOr404 at h
  split at h
  · rename_i found hfound
    split at h
    · rename_i howns
      cases h
      exact ⟨List.mem_of_find?_eq_some hfound, by simpa using List.find?_some hfound, howns⟩
    · cases h
  · cases h

theorem activateRevision_valid {t t' : RouteTables} (h : RoutesValid t) {routeId revisionId : Uuid}
    {now : Instant} (hok : activateRevision t routeId revisionId now = .ok t') : RoutesValid t' := by
  unfold activateRevision at hok
  obtain ⟨route, hfound, hok⟩ := bind_ok.mp hok
  obtain ⟨revision, hrevision, hok⟩ := bind_ok.mp hok
  obtain ⟨superseded, hsuperseded, hok⟩ := bind_ok.mp hok
  obtain ⟨changed, hchanged, hok⟩ := bind_ok.mp hok
  rw [← pure_ok.mp hok]
  obtain ⟨hroute, -⟩ := routeOr404_ok hfound
  obtain ⟨hmem, -, howns⟩ := revisionOr404_ok hrevision
  unfold supersedeFormer at hsuperseded
  cases hformer : formerRevision t route revision.id with
  | none =>
    rw [hformer] at hsuperseded
    obtain rfl := Except.ok.inj hsuperseded
    rw [updateRevision_ok h.revisionIds hmem hchanged]
    have hnone : ∀ row ∈ t.revisions, row.routeId = route.id → row.id ≠ revision.id →
        row.status ≠ .active := by
      intro row hrow hown hne hactive
      have hnamed := (h.active route hroute row hrow hown).mp hactive
      have hfind : findRevision t row.id = some row := (find?_key_eq_some_iff h.revisionIds).mpr ⟨hrow, rfl⟩
      simp only [formerRevision, hnamed, if_neg hne, hfind] at hformer
      cases hformer
    have hrows : modifyWhere (fun row => decide (row.id = revision.id)) (fun _ => activated revision now)
        t.revisions = t.revisions.map fun row =>
          if row.id = revision.id then activated revision now else row := by
      simp only [modifyWhere, decide_eq_true_eq]
    rw [hrows]
    exact setActive_valid h (activates_only h hroute hmem howns hnone now)
  | some old =>
    rw [hformer] at hsuperseded
    have hactive : route.activeRevisionId = some old.id ∧ old.id ≠ revision.id ∧ old ∈ t.revisions := by
      unfold formerRevision at hformer
      split at hformer
      · rename_i activeId hactive
        split at hformer
        · cases hformer
        · rename_i hne
          obtain ⟨hold, hid⟩ := (find?_key_eq_some_iff h.revisionIds).mp hformer
          exact ⟨hid ▸ hactive, hid ▸ hne, hold⟩
      · cases hformer
    obtain ⟨hactive, hne, hold⟩ := hactive
    have hsuper := updateRevision_ok h.revisionIds hold hsuperseded
    have hids : (superseded.revisions.map (·.id)).Nodup := by
      rw [hsuper]
      show ((modifyWhere _ _ t.revisions).map (·.id)).Nodup
      have hsame : (modifyWhere (fun row => decide (row.id = old.id))
          (fun _ => ({ old with status := .superseded } : Revision)) t.revisions).map (·.id) =
          t.revisions.map (·.id) := by
        simp only [modifyWhere, List.map_map]
        refine List.map_congr_left fun row _ => ?_
        by_cases hid : row.id = old.id <;> simp [hid]
      rw [hsame]
      exact h.revisionIds
    have hstill : revision ∈ superseded.revisions := by
      rw [hsuper]
      exact mem_modifyWhere.mpr ⟨revision, hmem, by simp [hne.symm]⟩
    have hrows : modifyWhere (fun row => decide (row.id = revision.id)) (fun _ => activated revision now)
        (modifyWhere (fun row => decide (row.id = old.id))
          (fun _ => ({ old with status := .superseded } : Revision)) t.revisions) =
        t.revisions.map fun row => if row.id = revision.id then activated revision now
          else if row.id = old.id then { old with status := .superseded } else row := by
      simp only [modifyWhere, List.map_map]
      refine List.map_congr_left fun row _ => ?_
      by_cases hformer : row.id = old.id
      · have hother : row.id ≠ revision.id := hformer ▸ hne
        simp [hformer, hne]
      · simp [hformer]
    rw [updateRevision_ok hids hstill hchanged, hsuper]
    simp only [hrows]
    exact setActive_valid h (activates_after h hroute hmem howns hold hactive hne now)

/-! ## One call -/

/-- An activating import names a route without an active revision, or a new one. -/
def ImportsInactive (t : RouteTables) : RouteCall → Prop
  | .importRoute body _ _ =>
      body.activate = true → ∀ route, findRouteByCode t body.code = some route → route.activeRevisionId = none
  | _ => True

/-- The route of an import is stored, new or found by its code. -/
theorem importedRoute_valid {t : RouteTables} (h : RoutesValid t) (body : RouteImport) :
    RoutesValid (importedRoute t body).1 ∧ (importedRoute t body).2 ∈ (importedRoute t body).1.routes := by
  unfold importedRoute
  cases hfind : findRouteByCode t body.code with
  | none => exact ⟨addRoute_valid h _ _, List.mem_append_right _ (List.mem_singleton_self _)⟩
  | some route => exact ⟨h, List.mem_of_find?_eq_some hfind⟩

theorem importRoute_valid {t t' : RouteTables} (h : RoutesValid t) {body : RouteImport} {userId : Uuid}
    {now : Instant} {revisionId : Uuid} (hcall : ImportsInactive t (.importRoute body userId now))
    (hok : importRoute t body userId now = .ok (t', revisionId)) : RoutesValid t' := by
  obtain ⟨hvalid, hroute⟩ := importedRoute_valid h body
  have hinactive : body.activate = true → (importedRoute t body).2.activeRevisionId = none := by
    intro hactivate
    unfold importedRoute
    cases hfind : findRouteByCode t body.code with
    | none => rfl
    | some route => exact hcall hactivate route hfind
  unfold importRoute at hok
  obtain ⟨⟨created, revision⟩, hcreated, hok⟩ := bind_ok.mp hok
  obtain ⟨rfl, rfl⟩ := createRevisionOf_ok hcreated
  have hnew := withRevision_valid hvalid hroute body.steps userId
  dsimp only at hok
  split at hok
  · rename_i hactivate
    obtain ⟨changed, hchanged, hok⟩ := bind_ok.mp hok
    rw [← (pair_ok.mp hok).1]
    have hmem : newRevision (importedRoute t body).1 (importedRoute t body).2.id userId ∈
        (withRevision (importedRoute t body).1 (importedRoute t body).2.id body.steps userId).revisions :=
      List.mem_append_right _ (List.mem_singleton_self _)
    rw [updateRevision_ok hnew.revisionIds hmem hchanged]
    have hnone : ∀ row ∈ (withRevision (importedRoute t body).1 (importedRoute t body).2.id body.steps
        userId).revisions, row.routeId = (importedRoute t body).2.id →
        row.id ≠ (newRevision (importedRoute t body).1 (importedRoute t body).2.id userId).id →
        row.status ≠ .active := by
      intro row hrow hown _ hactive
      have hnamed := (hnew.active _ hroute row hrow hown).mp hactive
      rw [hinactive hactivate] at hnamed
      cases hnamed
    have hactivates := activates_only hnew hroute hmem rfl hnone now
    have hset := setActive_valid hnew hactivates
    simpa only [modifyWhere, decide_eq_true_eq] using hset
  · rw [← (pair_ok.mp hok).1]
    exact hnew

theorem execRoute_valid {t : RouteTables} (h : RoutesValid t) {call : RouteCall}
    (hcall : ImportsInactive t call) : RoutesValid (execRoute t call).1 := by
  cases call with
  | createRoute body userId =>
    simp only [execRoute]
    cases hok : createRoute t body userId with
    | error e => exact h
    | ok result =>
      unfold createRoute at hok
      split at hok
      · cases hok
      · obtain ⟨⟨created, revision⟩, hcreated, hok⟩ := bind_ok.mp hok
        obtain ⟨rfl, rfl⟩ := createRevisionOf_ok hcreated
        have hroute : newRoute t body.code body.name ∈
            (addRoute t (newRoute t body.code body.name)).routes :=
          List.mem_append_right _ (List.mem_singleton_self _)
        have hnew := withRevision_valid (addRoute_valid h body.code body.name) hroute body.steps userId
        rw [← pure_ok.mp hok]
        exact hnew
  | createRevision routeId body userId =>
    simp only [execRoute]
    cases hok : createRevision t routeId body userId with
    | error e => exact h
    | ok result =>
      unfold createRevision at hok
      obtain ⟨route, hfound, hok⟩ := bind_ok.mp hok
      obtain ⟨⟨created, revision⟩, hcreated, hok⟩ := bind_ok.mp hok
      obtain ⟨rfl, rfl⟩ := createRevisionOf_ok hcreated
      rw [← pure_ok.mp hok]
      exact withRevision_valid h (routeOr404_ok hfound).1 body.steps userId
  | activate routeId revisionId now =>
    simp only [execRoute]
    cases hok : activateRevision t routeId revisionId now with
    | error e => exact h
    | ok committed => exact activateRevision_valid h hok
  | importRoute body userId now =>
    simp only [execRoute]
    cases hok : importRoute t body userId now with
    | error e => exact h
    | ok result => exact importRoute_valid h hcall hok

/-! ## Submitted steps -/

/-- The steps a call submits. -/
def submitted : RouteCall → Option (List StepInput)
  | .createRoute body _ => some body.steps
  | .createRevision _ body _ => some body.steps
  | .importRoute body _ _ => some body.steps
  | .activate .. => none

/-- The steps of the revisions of `t` stay as they are. -/
structure KeepsSteps (t t' : RouteTables) : Prop where
  nextId : t.nextId ≤ t'.nextId
  steps : ∀ revisionId < t.nextId, stepsOf t' revisionId = stepsOf t revisionId

theorem KeepsSteps.refl (t : RouteTables) : KeepsSteps t t := ⟨le_rfl, fun _ _ => rfl⟩

theorem KeepsSteps.trans {a b c : RouteTables} (hab : KeepsSteps a b) (hbc : KeepsSteps b c) :
    KeepsSteps a c :=
  ⟨hab.nextId.trans hbc.nextId, fun revisionId hlt =>
    (hbc.steps revisionId (hlt.trans_le hab.nextId)).trans (hab.steps revisionId hlt)⟩

/-- A call creates at most one revision, with the submitted steps, and leaves the others alone. -/
structure RouteStepEffect (t : RouteTables) (call : RouteCall) (result : RouteTables × RouteResponse) :
    Prop where
  keeps : KeepsSteps t result.1
  created : ∀ revisionId, result.2 = .created revisionId → ∃ steps, submitted call = some steps ∧
    revisionId < result.1.nextId ∧
      (RoutesValid t → stepsOf result.1 revisionId = stepRows revisionId steps)

theorem keepsSteps_withRevision (t : RouteTables) (routeId : Uuid) (steps : List StepInput) (userId : Uuid) :
    KeepsSteps t (withRevision t routeId steps userId) := by
  refine ⟨Nat.le_succ _, fun revisionId hlt => ?_⟩
  have hnone : (stepRows t.nextId steps).filter
      (fun step => decide (step.routeRevisionId = revisionId)) = [] := by
    rw [List.filter_eq_nil_iff]
    intro step hstep hsame
    rw [decide_eq_true_eq, stepRows_owner hstep] at hsame
    exact hlt.ne' hsame
  rw [stepsOf, withRevision, List.filter_append, hnone, List.append_nil, stepsOf]

theorem keepsSteps_of_same {t t' : RouteTables} (steps : t'.steps = t.steps) (nextId : t'.nextId = t.nextId) :
    KeepsSteps t t' :=
  ⟨nextId.ge, fun _ _ => by rw [stepsOf, stepsOf, steps]⟩

theorem updateRevision_steps {t t' : RouteTables} {old new : Revision}
    (h : updateRevision t old new = .ok t') : t'.steps = t.steps ∧ t'.nextId = t.nextId := by
  unfold updateRevision at h
  split at h
  · rw [Except.ok.inj h]
    exact ⟨rfl, rfl⟩
  · split at h
    · rw [← Except.ok.inj h]
      exact ⟨rfl, rfl⟩
    · cases h

/-- What `_create_revision` leaves behind, whatever is activated afterwards. -/
theorem created_effect {t m t' : RouteTables} {call : RouteCall} {routeId userId : Uuid}
    {steps : List StepInput} (hsubmitted : submitted call = some steps)
    (hm : m.steps = t.steps ∧ t.nextId ≤ m.nextId)
    (hsteps : t'.steps = (withRevision m routeId steps userId).steps)
    (hnext : t'.nextId = (withRevision m routeId steps userId).nextId) :
    RouteStepEffect t call (t', .created m.nextId) := by
  have hbefore : KeepsSteps t m := ⟨hm.2, fun _ _ => by rw [stepsOf, stepsOf, hm.1]⟩
  refine ⟨(hbefore.trans (keepsSteps_withRevision m routeId steps userId)).trans
    (keepsSteps_of_same hsteps hnext), fun revisionId hcreated => ?_⟩
  obtain rfl := RouteResponse.created.inj hcreated
  refine ⟨steps, hsubmitted, ?_, fun hvalid => ?_⟩
  · show m.nextId < t'.nextId
    rw [hnext]
    exact Nat.lt_succ_self _
  · have hold : t.steps.filter (fun step => decide (step.routeRevisionId = m.nextId)) = [] := by
      rw [List.filter_eq_nil_iff]
      intro step hstep hsame
      rw [decide_eq_true_eq] at hsame
      exact ((hvalid.stepFresh step hstep).trans_le hm.2).ne hsame
    have hnew : (stepRows m.nextId steps).filter (fun step => decide (step.routeRevisionId = m.nextId)) =
        stepRows m.nextId steps := by
      rw [List.filter_eq_self]
      intro step hstep
      rw [decide_eq_true_eq, stepRows_owner hstep]
    rw [stepsOf, hsteps, withRevision, List.filter_append, hm.1, hold, hnew, List.nil_append]

theorem refused_effect (t : RouteTables) (call : RouteCall) (error : RouteError) :
    RouteStepEffect t call (t, .raised error) :=
  ⟨KeepsSteps.refl t, nofun⟩

theorem execRoute_steps (t : RouteTables) (call : RouteCall) :
    RouteStepEffect t call (execRoute t call) := by
  cases call with
  | createRoute body userId =>
    simp only [execRoute]
    cases hok : createRoute t body userId with
    | error e => exact refused_effect t _ e
    | ok result =>
      unfold createRoute at hok
      split at hok
      · cases hok
      · obtain ⟨⟨created, revision⟩, hcreated, hok⟩ := bind_ok.mp hok
        obtain ⟨rfl, rfl⟩ := createRevisionOf_ok hcreated
        rw [← pure_ok.mp hok]
        exact created_effect rfl ⟨rfl, Nat.le_succ _⟩ rfl rfl
  | createRevision routeId body userId =>
    simp only [execRoute]
    cases hok : createRevision t routeId body userId with
    | error e => exact refused_effect t _ e
    | ok result =>
      unfold createRevision at hok
      obtain ⟨route, hfound, hok⟩ := bind_ok.mp hok
      obtain ⟨⟨created, revision⟩, hcreated, hok⟩ := bind_ok.mp hok
      obtain ⟨rfl, rfl⟩ := createRevisionOf_ok hcreated
      rw [← pure_ok.mp hok]
      exact created_effect rfl ⟨rfl, le_rfl⟩ rfl rfl
  | activate routeId revisionId now =>
    simp only [execRoute]
    cases hok : activateRevision t routeId revisionId now with
    | error e => exact refused_effect t _ e
    | ok committed =>
      refine ⟨?_, nofun⟩
      unfold activateRevision at hok
      obtain ⟨route, hfound, hok⟩ := bind_ok.mp hok
      obtain ⟨revision, hrevision, hok⟩ := bind_ok.mp hok
      obtain ⟨superseded, hsuperseded, hok⟩ := bind_ok.mp hok
      obtain ⟨changed, hchanged, hok⟩ := bind_ok.mp hok
      have hfirst : superseded.steps = t.steps ∧ superseded.nextId = t.nextId := by
        unfold supersedeFormer at hsuperseded
        split at hsuperseded
        · exact updateRevision_steps hsuperseded
        · rw [Except.ok.inj hsuperseded]
          exact ⟨rfl, rfl⟩
      have hsecond := updateRevision_steps hchanged
      rw [← pure_ok.mp hok]
      exact keepsSteps_of_same (hsecond.1.trans hfirst.1) (hsecond.2.trans hfirst.2)
  | importRoute body userId now =>
    simp only [execRoute]
    cases hok : importRoute t body userId now with
    | error e => exact refused_effect t _ e
    | ok result =>
      have hfound : (importedRoute t body).1.steps = t.steps ∧ t.nextId ≤ (importedRoute t body).1.nextId := by
        unfold importedRoute
        split
        · exact ⟨rfl, le_rfl⟩
        · exact ⟨rfl, Nat.le_succ _⟩
      unfold importRoute at hok
      obtain ⟨⟨created, revision⟩, hcreated, hok⟩ := bind_ok.mp hok
      obtain ⟨rfl, rfl⟩ := createRevisionOf_ok hcreated
      dsimp only at hok
      split at hok
      · obtain ⟨changed, hchanged, hok⟩ := bind_ok.mp hok
        rw [← pure_ok.mp hok]
        have hsame := updateRevision_steps hchanged
        exact created_effect rfl hfound hsame.1 hsame.2
      · rw [← pure_ok.mp hok]
        exact created_effect rfl hfound rfl rfl

end TraceQ.Api
