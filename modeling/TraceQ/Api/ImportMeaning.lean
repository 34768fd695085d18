import TraceQ.Api.RouteExports

/-! # What imports of routes do

Every call of the route endpoints adds a revision with the submitted steps, or changes columns that an export does
not depend on. An import appends one revision to what is exported of its route and leaves the other routes alone.
-/
namespace TraceQ.Api
open Quality Tables Results
set_option autoImplicit false
set_option maxHeartbeats 250000

variable {t t' : RouteTables} {userId : Uuid} {now : Instant}

/-! ## Rewriting rows -/

theorem rewritten_refl (t : RouteTables) : Rewritten t t :=
  ⟨rfl, fun route hroute _ hactive => .inr ⟨route, hroute, hactive⟩, rfl, rfl, rfl⟩

theorem rewritten_trans {a b c : RouteTables} (hab : Rewritten a b) (hbc : Rewritten b c) : Rewritten a c := by
  refine ⟨hbc.routes.trans hab.routes, fun route hroute id hactive => ?_, hbc.revisions.trans hab.revisions,
    hbc.steps.trans hab.steps, hbc.nextId.trans hab.nextId⟩
  rcases hbc.active route hroute id hactive with hlt | ⟨old, hold, hwas⟩
  · left
    rwa [← hab.nextId]
  · exact hab.active old hold id hwas

/-- A row that was read keeps its key. -/
theorem rewritten_key (hids : (t.revisions.map (·.id)).Nodup) (h : Rewritten t t') {revision : Revision}
    (hread : revision ∈ t.revisions) {row : Revision} (hrow : row ∈ t'.revisions) (hid : row.id = revision.id) :
    revisionKey row = revisionKey revision := by
  obtain ⟨old, hold, hkey⟩ := exists_key h.revisions hrow
  have hsame : old.id = revision.id := (congrArg Prod.fst hkey).trans hid
  rw [← hkey, eq_of_nodup_map hids hold hread hsame]

theorem updateRevision_rewritten {old new : Revision}
    (hkeys : ∀ row ∈ t.revisions, row.id = old.id → revisionKey row = revisionKey new)
    (h : updateRevision t old new = .ok t') : Rewritten t t' := by
  unfold updateRevision at h
  split at h
  · rw [← Except.ok.inj h]
    exact rewritten_refl t
  · split at h
    · rw [← Except.ok.inj h]
      refine ⟨rfl, fun route hroute _ hactive => .inr ⟨route, hroute, hactive⟩, ?_, rfl, rfl⟩
      simp only [modifyWhere, List.map_map]
      refine List.map_congr_left fun row hrow => ?_
      by_cases hid : row.id = old.id
      · simp [hid, hkeys row hrow hid]
      · simp [hid]
    · cases h

theorem setActive_rewritten {revisionId : Uuid} (hused : revisionId < t.nextId) (routeId : Uuid) :
    Rewritten t (setActive t routeId revisionId) := by
  have hkeys : (setActive t routeId revisionId).routes.map routeKey = t.routes.map routeKey := by
    apply map_modifyWhere
    intro row
    rfl
  refine ⟨hkeys, fun route hroute id hactive => ?_, rfl, rfl, rfl⟩
  obtain ⟨old, hold, rfl⟩ := mem_modifyWhere.mp hroute
  by_cases hid : old.id = routeId
  · left
    simp only [hid, decide_true, if_true, Option.some.injEq] at hactive
    exact hactive ▸ hused
  · simp only [hid, decide_false, Bool.false_eq_true, if_false] at hactive
    exact .inr ⟨old, hold, hactive⟩

theorem formerRevision_mem {route : Route} {revisionId : Uuid} {old : Revision}
    (h : formerRevision t route revisionId = some old) : old ∈ t.revisions := by
  unfold formerRevision at h
  split at h
  · split at h
    · cases h
    · exact List.mem_of_find?_eq_some h
  · cases h

theorem activateRevision_rewritten (h : Exportable t) {routeId revisionId : Uuid}
    (hok : activateRevision t routeId revisionId now = .ok t') : Rewritten t t' := by
  unfold activateRevision at hok
  obtain ⟨route, hroute, hok⟩ := bind_ok.mp hok
  obtain ⟨revision, hrevision, hok⟩ := bind_ok.mp hok
  obtain ⟨superseded, hsuperseded, hok⟩ := bind_ok.mp hok
  obtain ⟨changed, hchanged, hok⟩ := bind_ok.mp hok
  rw [← pure_ok.mp hok]
  have hmem : revision ∈ t.revisions := (revisionOr404_ok hrevision).1
  have hfirst : Rewritten t superseded := by
    unfold supersedeFormer at hsuperseded
    split at hsuperseded
    · rename_i old hformer
      have hold : old ∈ t.revisions := formerRevision_mem hformer
      refine updateRevision_rewritten (fun row hrow hid => ?_) hsuperseded
      exact rewritten_key h.revisionIds (rewritten_refl t) hold hrow hid
    · rw [← Except.ok.inj hsuperseded]
      exact rewritten_refl t
  have hsecond : Rewritten superseded changed := by
    refine updateRevision_rewritten (fun row hrow hid => ?_) hchanged
    exact rewritten_key h.revisionIds hfirst hmem hrow hid
  have hboth := rewritten_trans hfirst hsecond
  refine rewritten_trans hboth (setActive_rewritten ?_ route.id)
  rw [hboth.nextId]
  exact (h.revisionFresh revision hmem).1

/-! ## New rows -/

theorem exportable_empty : Exportable {} := by
  refine ⟨?_, ?_, ?_, ?_, ?_, ?_, ?_, ?_⟩ <;> simp [revisionsOf]

theorem exportable_addRoute (h : Exportable t) (code name : String) :
    Exportable (addRoute t (newRoute t code name)) := by
  have hnext : t.nextId < (addRoute t (newRoute t code name)).nextId := Nat.lt_succ_self _
  refine
    { routeIds := nodup_map_append h.routeIds fun route hroute => (h.routeFresh route hroute).ne
      routeFresh := fun route hroute => ?_
      activeFresh := fun route hroute id hactive => ?_
      revisionIds := h.revisionIds
      revisionFresh := fun revision hrevision => ?_
      stepFresh := fun step hstep => (h.stepFresh step hstep).trans hnext
      numbered := h.numbered
      submitted := h.submitted }
  · rcases List.mem_append.mp hroute with hold | hnew
    · exact (h.routeFresh route hold).trans hnext
    · rw [List.mem_singleton.mp hnew]
      exact hnext
  · rcases List.mem_append.mp hroute with hold | hnew
    · exact (h.activeFresh route hold id hactive).trans hnext
    · rw [List.mem_singleton.mp hnew] at hactive
      cases hactive
  · obtain ⟨hid, hroute⟩ := h.revisionFresh revision hrevision
    exact ⟨hid.trans hnext, hroute.trans hnext⟩

theorem stepsOf_new (h : Exportable t) (routeId userId : Uuid) (steps : List StepInput) :
    stepsOf (withRevision t routeId steps userId) t.nextId = stepRows t.nextId steps := by
  have hold : t.steps.filter (fun step => decide (step.routeRevisionId = t.nextId)) = [] := by
    rw [List.filter_eq_nil_iff]
    intro step hstep hsame
    exact (h.stepFresh step hstep).ne (of_decide_eq_true hsame)
  have hnew : (stepRows t.nextId steps).filter (fun step => decide (step.routeRevisionId = t.nextId)) =
      stepRows t.nextId steps := by
    rw [List.filter_eq_self]
    intro step hstep
    exact decide_eq_true (stepRows_owner hstep)
  rw [stepsOf, withRevision, List.filter_append, hold, hnew, List.nil_append]

theorem revisionsOf_append (t : RouteTables) (routeId : Uuid) (revision : Revision) :
    revisionsOf { t with revisions := t.revisions ++ [revision] } routeId =
      revisionsOf t routeId ++ if revision.routeId = routeId then [revision] else [] := by
  rw [revisionsOf, List.filter_append, ← revisionsOf]
  by_cases hid : revision.routeId = routeId <;> simp [hid]

theorem currentRevision_eq (h : Exportable t) (routeId : Uuid) :
    currentRevision t routeId = (revisionsOf t routeId).length := by
  rw [currentRevision, h.numbered routeId, foldl_max_range']

theorem exportable_withRevision (h : Exportable t) {routeId : Uuid} (hroute : routeId < t.nextId)
    {steps : List StepInput} (hsome : steps ≠ []) (hvalid : validateSteps steps = .ok ()) (userId : Uuid) :
    Exportable (withRevision t routeId steps userId) := by
  have hnext : t.nextId < (withRevision t routeId steps userId).nextId := Nat.lt_succ_self _
  refine
    { routeIds := h.routeIds
      routeFresh := fun route hroute => (h.routeFresh route hroute).trans hnext
      activeFresh := fun route hroute id hactive => (h.activeFresh route hroute id hactive).trans hnext
      revisionIds := nodup_map_append h.revisionIds fun revision hrevision => (h.revisionFresh revision hrevision).1.ne
      revisionFresh := fun revision hrevision => ?_
      stepFresh := fun step hstep => ?_
      numbered := fun other => ?_
      submitted := fun revision hrevision => ?_ }
  · rcases List.mem_append.mp hrevision with hold | hnew
    · obtain ⟨hid, howner⟩ := h.revisionFresh revision hold
      exact ⟨hid.trans hnext, howner.trans hnext⟩
    · rw [List.mem_singleton.mp hnew]
      exact ⟨hnext, hroute.trans hnext⟩
  · rcases List.mem_append.mp hstep with hold | hnew
    · exact (h.stepFresh step hold).trans hnext
    · rw [stepRows_owner hnew]
      exact hnext
  · have hrows : revisionsOf (withRevision t routeId steps userId) other =
        revisionsOf t other ++ if routeId = other then [newRevision t routeId userId] else [] :=
      revisionsOf_append t other (newRevision t routeId userId)
    rw [hrows]
    by_cases hother : routeId = other
    · subst hother
      rw [if_pos rfl, List.map_append, h.numbered, List.length_append, List.length_singleton, List.range'_concat]
      simp [newRevision, currentRevision_eq h, Nat.add_comm]
    · rw [if_neg hother, List.append_nil]
      exact h.numbered other
  · rcases List.mem_append.mp hrevision with hold | hnew
    · obtain ⟨entered, hentered, hchecked, hrows⟩ := h.submitted revision hold
      refine ⟨entered, hentered, hchecked, ?_⟩
      rw [(keepsSteps_withRevision t routeId steps userId).steps _ (h.revisionFresh revision hold).1]
      exact hrows
    · rw [List.mem_singleton.mp hnew]
      exact ⟨steps, hsome, hvalid, stepsOf_new h routeId userId steps⟩

/-! ## Calls -/

/-- The tables and the route to which a call adds a revision: the route is stored already, or has just been. -/
def Prepared (t m : RouteTables) (route : Route) : Prop :=
  (m = t ∧ route ∈ t.routes) ∨
    ∃ code name, m = addRoute t (newRoute t code name) ∧ route = newRoute t code name

theorem exportable_prepared (h : Exportable t) {m : RouteTables} {route : Route} (hprepared : Prepared t m route) :
    Exportable m ∧ route ∈ m.routes := by
  rcases hprepared with ⟨rfl, hroute⟩ | ⟨code, name, rfl, rfl⟩
  · exact ⟨h, hroute⟩
  · exact ⟨exportable_addRoute h code name, List.mem_append_right _ (List.mem_singleton_self _)⟩

theorem importedRoute_prepared (t : RouteTables) (body : RouteImport) :
    Prepared t (importedRoute t body).1 (importedRoute t body).2 := by
  unfold importedRoute
  cases hfind : findRouteByCode t body.code with
  | none => exact .inr ⟨body.code, body.name, rfl, rfl⟩
  | some route => exact .inl ⟨rfl, List.mem_of_find?_eq_some hfind⟩

/-- The revision an import creates. -/
def importedRevision (t : RouteTables) (routeId : Uuid) (body : RouteImport) (userId : Uuid) (now : Instant) :
    Revision :=
  if body.activate then activated (newRevision t routeId userId) now else newRevision t routeId userId

theorem importedRevision_key (t : RouteTables) (routeId : Uuid) (body : RouteImport) (userId : Uuid) (now : Instant) :
    revisionKey (importedRevision t routeId body userId now) = (t.nextId, routeId, currentRevision t routeId + 1) := by
  unfold importedRevision
  cases body.activate <;> rfl

/-- The tables an import leaves. -/
def importedTables (t : RouteTables) (routeId : Uuid) (body : RouteImport) (userId : Uuid) (now : Instant) :
    RouteTables :=
  { withRevision t routeId body.steps userId with
    routes :=
      if body.activate then
        modifyWhere (fun row => decide (row.id = routeId))
          (fun row => { row with activeRevisionId := some t.nextId }) t.routes
      else t.routes
    revisions := t.revisions ++ [importedRevision t routeId body userId now] }

theorem createRevisionOf_eq {steps : List StepInput} (hvalid : validateSteps steps = .ok ()) (t : RouteTables)
    (routeId userId : Uuid) :
    createRevisionOf t routeId steps userId =
      .ok (withRevision t routeId steps userId, newRevision t routeId userId) := by
  rw [createRevisionOf, hvalid]
  rfl

theorem createRevisionOf_valid {routeId : Uuid} {steps : List StepInput} {result : RouteTables × Revision}
    (h : createRevisionOf t routeId steps userId = .ok result) : validateSteps steps = .ok () := by
  obtain ⟨_, hvalid, -⟩ := bind_ok.mp h
  exact hvalid

/-- An import is refused for its steps only. -/
theorem importRoute_eq {body : RouteImport} {m : RouteTables} {route : Route}
    (hfound : importedRoute t body = (m, route)) (h : Exportable m) (hvalid : validateSteps body.steps = .ok ())
    (userId : Uuid) (now : Instant) :
    importRoute t body userId now = .ok (importedTables m route.id body userId now, m.nextId) := by
  simp only [importRoute, hfound, createRevisionOf_eq hvalid]
  by_cases hactivate : body.activate = true
  · have hchanges : activated (newRevision m route.id userId) now ≠ newRevision m route.id userId := by
      intro hsame
      have hstatus := congrArg Revision.status hsame
      cases hstatus
    have hrows : modifyWhere (fun row => decide (row.id = m.nextId))
        (fun _ => activated (newRevision m route.id userId) now)
        (m.revisions ++ [newRevision m route.id userId]) =
          m.revisions ++ [activated (newRevision m route.id userId) now] := by
      have hold : modifyWhere (fun row => decide (row.id = m.nextId))
          (fun _ => activated (newRevision m route.id userId) now) m.revisions = m.revisions := by
        rw [modifyWhere_eq_self]
        intro row hrow hid
        exact absurd (of_decide_eq_true hid) (h.revisionFresh row hrow).1.ne
      rw [modifyWhere, List.map_append, ← modifyWhere, hold]
      simp [newRevision]
    have hupdate : updateRevision (withRevision m route.id body.steps userId) (newRevision m route.id userId)
        (activated (newRevision m route.id userId) now) =
          .ok { withRevision m route.id body.steps userId with
            revisions := m.revisions ++ [activated (newRevision m route.id userId) now] } := by
      have hguard : immutableGuard (newRevision m route.id userId)
          (activated (newRevision m route.id userId) now) = true := by
        rw [immutableGuard]
        rfl
      rw [updateRevision, if_neg hchanges, if_pos hguard, ← hrows]
      rfl
    show (if body.activate = true then _ else _) = _
    rw [if_pos hactivate, hupdate]
    simp only [importedTables, importedRevision, hactivate, if_true]
    rfl
  · show (if body.activate = true then _ else _) = _
    rw [if_neg hactivate]
    simp only [importedTables, importedRevision, hactivate, Bool.false_eq_true, if_false]
    rfl

theorem importedTables_rewritten (t : RouteTables) (routeId : Uuid) (body : RouteImport) (userId : Uuid)
    (now : Instant) :
    Rewritten (withRevision t routeId body.steps userId) (importedTables t routeId body userId now) := by
  have hkeys : (importedTables t routeId body userId now).revisions.map revisionKey =
      (withRevision t routeId body.steps userId).revisions.map revisionKey := by
    simp only [importedTables, withRevision, List.map_append, List.map_singleton, importedRevision_key]
    rfl
  have hused : t.nextId < (withRevision t routeId body.steps userId).nextId := Nat.lt_succ_self _
  cases hactivate : body.activate with
  | false =>
    refine ⟨?_, fun route hroute _ hactive => .inr ⟨route, ?_, hactive⟩, hkeys, rfl, rfl⟩
    · simp [importedTables, hactivate, withRevision]
    · simpa [importedTables, hactivate, withRevision] using hroute
  | true =>
    have hset := setActive_rewritten hused routeId
    have hroutes : (importedTables t routeId body userId now).routes =
        (setActive (withRevision t routeId body.steps userId) routeId t.nextId).routes := by
      simp [importedTables, hactivate, withRevision, setActive]
    exact ⟨hroutes ▸ hset.routes, hroutes ▸ hset.active, hkeys, rfl, rfl⟩

/-- What a call does: it adds a revision or changes columns of rows. -/
theorem execRoute_cases (h : Exportable t) (call : RouteCall) :
    Rewritten t (execRoute t call).1 ∨
      ∃ m route steps userId, Prepared t m route ∧ steps ≠ [] ∧ validateSteps steps = .ok () ∧
        Rewritten (withRevision m route.id steps userId) (execRoute t call).1 := by
  cases call with
  | createRoute body userId =>
    simp only [execRoute]
    cases hok : createRoute t body userId with
    | error error => exact .inl (rewritten_refl t)
    | ok result =>
      unfold createRoute at hok
      split at hok
      · cases hok
      · obtain ⟨⟨created, revision⟩, hcreated, hok⟩ := bind_ok.mp hok
        have hvalid := createRevisionOf_valid hcreated
        obtain ⟨rfl, rfl⟩ := createRevisionOf_ok hcreated
        rw [← pure_ok.mp hok]
        exact .inr ⟨_, _, body.steps, userId, .inr ⟨body.code, body.name, rfl, rfl⟩, body.min_length, hvalid,
          rewritten_refl _⟩
  | createRevision routeId body userId =>
    simp only [execRoute]
    cases hok : createRevision t routeId body userId with
    | error error => exact .inl (rewritten_refl t)
    | ok result =>
      unfold createRevision at hok
      obtain ⟨route, hfound, hok⟩ := bind_ok.mp hok
      obtain ⟨⟨created, revision⟩, hcreated, hok⟩ := bind_ok.mp hok
      have hvalid := createRevisionOf_valid hcreated
      obtain ⟨rfl, rfl⟩ := createRevisionOf_ok hcreated
      rw [← pure_ok.mp hok]
      exact .inr ⟨t, route, body.steps, userId, .inl ⟨rfl, (routeOr404_ok hfound).1⟩, body.min_length, hvalid,
        rewritten_refl _⟩
  | activate routeId revisionId now =>
    simp only [execRoute]
    cases hok : activateRevision t routeId revisionId now with
    | error error => exact .inl (rewritten_refl t)
    | ok committed => exact .inl (activateRevision_rewritten h hok)
  | importRoute body userId now =>
    simp only [execRoute]
    cases hok : importRoute t body userId now with
    | error error => exact .inl (rewritten_refl t)
    | ok result =>
      have hprepared := importedRoute_prepared t body
      have hm := (exportable_prepared h hprepared).1
      have hvalid : validateSteps body.steps = .ok () := by
        unfold importRoute at hok
        obtain ⟨created, hcreated, -⟩ := bind_ok.mp hok
        exact createRevisionOf_valid hcreated
      rw [importRoute_eq rfl hm hvalid] at hok
      rw [← Except.ok.inj hok]
      exact .inr ⟨_, _, body.steps, userId, hprepared, body.min_length, hvalid,
        importedTables_rewritten _ _ body userId now⟩

theorem execRoute_exportable (h : Exportable t) (call : RouteCall) : Exportable (execRoute t call).1 := by
  rcases execRoute_cases h call with hsame | ⟨m, route, steps, userId, hprepared, hsome, hvalid, hsame⟩
  · exact h.rewritten hsame
  · obtain ⟨hm, hroute⟩ := exportable_prepared h hprepared
    have hnew := exportable_withRevision hm (hm.routeFresh route hroute) hsome hvalid userId
    exact hnew.rewritten hsame

/-- Every route has a revision. -/
def Furnished (t : RouteTables) : Prop := ∀ route ∈ t.routes, ∃ revision ∈ t.revisions, revision.routeId = route.id

theorem furnished_rewritten (h : Furnished t) (hsame : Rewritten t t') : Furnished t' := by
  intro route hroute
  obtain ⟨old, hold, hkey⟩ := exists_key hsame.routes hroute
  obtain ⟨revision, hrevision, howner⟩ := h old hold
  obtain ⟨kept, hkept, hkeptKey⟩ := exists_key hsame.revisions.symm hrevision
  refine ⟨kept, hkept, ?_⟩
  have hid : old.id = route.id := congrArg Prod.fst hkey
  have hrouteId : kept.routeId = revision.routeId := congrArg (fun key => key.2.1) hkeptKey
  rw [hrouteId, howner, hid]

theorem execRoute_furnished (hexportable : Exportable t) (h : Furnished t) (call : RouteCall) :
    Furnished (execRoute t call).1 := by
  rcases execRoute_cases hexportable call with hsame | ⟨m, route, steps, userId, hprepared, -, -, hsame⟩
  · exact furnished_rewritten h hsame
  · refine furnished_rewritten (fun other hother => ?_) hsame
    have hnew : newRevision m route.id userId ∈ (withRevision m route.id steps userId).revisions :=
      List.mem_append_right _ (List.mem_singleton_self _)
    rcases hprepared with ⟨rfl, -⟩ | ⟨code, name, rfl, rfl⟩
    · obtain ⟨revision, hrevision, howner⟩ := h other hother
      exact ⟨revision, List.mem_append_left _ hrevision, howner⟩
    · rcases List.mem_append.mp hother with hold | hlast
      · obtain ⟨revision, hrevision, howner⟩ := h other hold
        exact ⟨revision, List.mem_append_left _ hrevision, howner⟩
      · rw [List.mem_singleton.mp hlast]
        exact ⟨_, hnew, rfl⟩

theorem run_exportable (calls : List RouteCall) :
    Exportable (Machine.run execRoute {} calls) ∧ Furnished (Machine.run execRoute {} calls) := by
  apply Machine.run_invariant (P := fun t => Exportable t ∧ Furnished t)
  · exact fun t call h => ⟨execRoute_exportable h.1 call, execRoute_furnished h.1 h.2 call⟩
  · exact ⟨exportable_empty, by simp [Furnished]⟩

/-! ## One import -/

/-- What is exported of the route with the code; a route that is not there has no revisions. -/
def contentAt (t : RouteTables) (code name : String) : RouteContent :=
  (findRouteByCode t code).elim ⟨code, name, []⟩ fun route => (serialize t route).content

section Import
variable {m : RouteTables} (h : Exportable m) {route : Route} (body : RouteImport)
include h

theorem content_eq (route : Route) : (serialize m route).content =
    { code := route.code
      name := route.name
      revisions := (revisionsOf m route.id).map fun revision =>
        ⟨revision.revision, (exportRevision m revision).steps, decide (route.activeRevisionId = some revision.id)⟩ } := by
  rw [ExportedRoute.content, serialize_revisions h, List.map_map]
  rfl

theorem exportRevision_imported {revision : Revision} (hrevision : revision ∈ m.revisions) (routeId : Uuid) :
    exportRevision (importedTables m routeId body userId now) revision = exportRevision m revision := by
  have hkept := (keepsSteps_withRevision m routeId body.steps userId).steps revision.id
    (h.revisionFresh revision hrevision).1
  have hsteps : stepsOf (importedTables m routeId body userId now) revision.id = stepsOf m revision.id := hkept
  rw [exportRevision, exportRevision, hsteps]

variable (userId now) in
theorem exportable_imported (hroute : route ∈ m.routes) (hvalid : validateSteps body.steps = .ok ()) :
    Exportable (importedTables m route.id body userId now) := by
  have hnew := exportable_withRevision h (h.routeFresh route hroute) body.min_length hvalid userId
  exact hnew.rewritten (importedTables_rewritten m route.id body userId now)

variable (userId now) in
/-- The route as the import leaves it. -/
theorem content_imported (hroute : route ∈ m.routes) (hvalid : validateSteps body.steps = .ok ()) :
    (serialize (importedTables m route.id body userId now)
      (if body.activate then { route with activeRevisionId := some m.nextId } else route)).content =
        (serialize m route).content.imports body := by
  have hafter := exportable_imported userId now h body hroute hvalid
  have hlastKey := importedRevision_key m route.id body userId now
  rw [currentRevision_eq h] at hlastKey
  generalize hlast : importedRevision m route.id body userId now = last at hlastKey
  have hlastId : last.id = m.nextId := congrArg Prod.fst hlastKey
  have hlastRoute : last.routeId = route.id := congrArg (fun key => key.2.1) hlastKey
  have hlastNumber : last.revision = (revisionsOf m route.id).length + 1 := congrArg (fun key => key.2.2) hlastKey
  have hrows : revisionsOf (importedTables m route.id body userId now) route.id = revisionsOf m route.id ++ [last] := by
    have happend := revisionsOf_append m route.id last
    rw [if_pos hlastRoute] at happend
    rw [← happend, ← hlast]
    rfl
  have hlastSteps : (exportRevision (importedTables m route.id body userId now) last).steps =
      exportedSteps body.steps := by
    have hsteps : stepsOf (importedTables m route.id body userId now) m.nextId = stepRows m.nextId body.steps :=
      stepsOf_new h route.id userId body.steps
    rw [exportRevision, hlastId, hsteps, stepRows_sorted, stepRows_exported]
  have hmem : ∀ revision ∈ revisionsOf m route.id, revision ∈ m.revisions :=
    fun revision hrevision => List.mem_of_mem_filter hrevision
  rw [content_eq hafter, content_eq h]
  cases hactivate : body.activate with
  | false =>
    simp only [Bool.false_eq_true, if_false, RouteContent.imports, hactivate, hrows, List.map_append,
      List.map_singleton, List.length_map, hlastSteps, hlastNumber, hlastId, RouteContent.mk.injEq, true_and]
    have hnone : decide (route.activeRevisionId = some m.nextId) = false := by
      rw [decide_eq_false_iff_not]
      intro hactive
      exact (h.activeFresh route hroute m.nextId hactive).ne rfl
    rw [hnone]
    refine congrArg (· ++ _) (List.map_congr_left fun revision hrevision => ?_)
    rw [exportRevision_imported h body (hmem revision hrevision)]
  | true =>
    simp only [if_true, RouteContent.imports, hactivate, hrows, List.map_append, List.map_singleton,
      List.length_map, List.map_map, hlastSteps, hlastNumber, hlastId, RouteContent.mk.injEq, true_and, decide_true]
    refine congrArg (· ++ _) (List.map_congr_left fun revision hrevision => ?_)
    have hother : decide (some m.nextId = some revision.id) = false := by
      rw [decide_eq_false_iff_not, Option.some.injEq]
      exact (h.revisionFresh revision (hmem revision hrevision)).1.ne'
    rw [exportRevision_imported h body (hmem revision hrevision), hother]
    rfl

/-- The other routes. -/
theorem serialize_imported {other : Route} (hother : route.id ≠ other.id) :
    serialize (importedTables m route.id body userId now) other = serialize m other := by
  have hrows : revisionsOf (importedTables m route.id body userId now) other.id = revisionsOf m other.id := by
    have hkey := importedRevision_key m route.id body userId now
    have howner : (importedRevision m route.id body userId now).routeId = route.id :=
      congrArg (fun key => key.2.1) hkey
    have happend := revisionsOf_append m other.id (importedRevision m route.id body userId now)
    rw [howner, if_neg hother, List.append_nil] at happend
    exact happend
  rw [serialize, serialize, hrows, ExportedRoute.mk.injEq]
  refine ⟨rfl, rfl, rfl, rfl, List.map_congr_left fun revision hrevision => ?_⟩
  rw [List.mem_insertionSort] at hrevision
  exact exportRevision_imported h body (List.mem_of_mem_filter hrevision) route.id

theorem exportRoute_imported {id : Uuid} (hother : route.id ≠ id) :
    exportRoute (importedTables m route.id body userId now) id = exportRoute m id := by
  have hfind : (importedTables m route.id body userId now).routes.find? (fun row => decide (row.id = id)) =
      m.routes.find? fun row => decide (row.id = id) := by
    cases hactivate : body.activate with
    | false => simp [importedTables, hactivate]
    | true =>
      have hmap := find?_modifyWhere (p := fun row : Route => decide (row.id = route.id))
        (q := fun row : Route => decide (row.id = id))
        (f := fun row => { row with activeRevisionId := some m.nextId }) (fun _ => rfl) m.routes
      simp only [importedTables, hactivate, if_true]
      rw [hmap]
      cases hfound : m.routes.find? (fun row => decide (row.id = id)) with
      | none => rfl
      | some found =>
        have hid : found.id = id := by simpa using List.find?_some hfound
        simp [hid, hother.symm]
  unfold exportRoute routeOr404
  rw [hfind]
  cases hfound : m.routes.find? (fun row => decide (row.id = id)) with
  | none => rfl
  | some found =>
    have hid : found.id = id := by simpa using List.find?_some hfound
    show Except.ok (serialize _ found) = Except.ok (serialize m found)
    rw [serialize_imported h body (hid ▸ hother)]

end Import

/-! ## An import of a body -/

theorem exec_import (h : Exportable t) {body : RouteImport} (hvalid : validateSteps body.steps = .ok ()) :
    execRoute t (.importRoute body userId now) =
      (importedTables (importedRoute t body).1 (importedRoute t body).2.id body userId now,
        .created (importedRoute t body).1.nextId) := by
  have hm := (exportable_prepared h (importedRoute_prepared t body)).1
  rw [execRoute, importRoute_eq rfl hm hvalid]
  rfl

theorem find_new {code name : String} (hnew : findRouteByCode t code = none) :
    findRouteByCode (addRoute t (newRoute t code name)) code = some (newRoute t code name) := by
  unfold findRouteByCode at hnew ⊢
  rw [addRoute, List.find?_append, hnew]
  simp [newRoute]

theorem find_imported {route : Route} {body : RouteImport} {m : RouteTables}
    (hfound : findRouteByCode m body.code = some route) :
    findRouteByCode (importedTables m route.id body userId now) body.code =
      some (if body.activate then { route with activeRevisionId := some m.nextId } else route) := by
  unfold findRouteByCode at hfound ⊢
  cases hactivate : body.activate with
  | false => simpa [importedTables, hactivate] using hfound
  | true =>
    have hmap := find?_modifyWhere (p := fun row : Route => decide (row.id = route.id))
      (q := fun row : Route => decide (row.code = body.code))
      (f := fun row => { row with activeRevisionId := some m.nextId }) (fun _ => rfl) m.routes
    simp only [importedTables, hactivate, if_true]
    rw [hmap, hfound]
    simp

/-- The route that is there after an import, old or new. -/
theorem find_importedRoute (t : RouteTables) (body : RouteImport) :
    findRouteByCode (importedRoute t body).1 body.code = some (importedRoute t body).2 := by
  unfold importedRoute
  cases hfound : findRouteByCode t body.code with
  | none => exact find_new hfound
  | some route => exact hfound

/-- A new route has no content yet. -/
theorem content_importedRoute (h : Exportable t) (body : RouteImport) :
    (serialize (importedRoute t body).1 (importedRoute t body).2).content = contentAt t body.code body.name := by
  unfold contentAt importedRoute
  cases hfound : findRouteByCode t body.code with
  | some route => rfl
  | none =>
    have hrows : revisionsOf (addRoute t (newRoute t body.code body.name)) t.nextId = [] := by
      rw [revisionsOf, List.filter_eq_nil_iff]
      intro revision hrevision howner
      exact (h.revisionFresh revision hrevision).2.ne (of_decide_eq_true howner)
    have hcontent := content_eq (exportable_addRoute h body.code body.name) (newRoute t body.code body.name)
    have hid : (newRoute t body.code body.name).id = t.nextId := rfl
    rw [hid, hrows] at hcontent
    exact hcontent

variable (userId now) in
theorem import_content (h : Exportable t) {body : RouteImport} (hvalid : validateSteps body.steps = .ok ())
    (name : String) :
    contentAt (execRoute t (.importRoute body userId now)).1 body.code name =
      (contentAt t body.code body.name).imports body := by
  obtain ⟨hm, hroute⟩ := exportable_prepared h (importedRoute_prepared t body)
  have hcontent := content_imported userId now hm body hroute hvalid
  rw [content_importedRoute h body] at hcontent
  rw [exec_import h hvalid, contentAt, find_imported (find_importedRoute t body)]
  exact hcontent

theorem exportRoute_addRoute {id : Uuid} (hlt : id < t.nextId) (code name : String) :
    exportRoute (addRoute t (newRoute t code name)) id = exportRoute t id := by
  have hfind : (addRoute t (newRoute t code name)).routes.find? (fun row => decide (row.id = id)) =
      t.routes.find? fun row => decide (row.id = id) := by
    have hnone : [newRoute t code name].find? (fun row => decide (row.id = id)) = none := by
      simp [newRoute, hlt.ne']
    rw [addRoute, List.find?_append, hnone, Option.or_none]
  unfold exportRoute routeOr404
  rw [hfind]
  rfl

/-- Routes with the code are at `first` or above. -/
structure NewFrom (first : ℕ) (code : String) (t : RouteTables) : Prop where
  used : first ≤ t.nextId
  routes : ∀ route ∈ t.routes, route.code = code → first ≤ route.id

theorem newFrom_prepared {first : ℕ} {code : String} (h : NewFrom first code t) {m : RouteTables} {route : Route}
    (hprepared : Prepared t m route) : NewFrom first code m := by
  rcases hprepared with ⟨rfl, -⟩ | ⟨new, name, rfl, rfl⟩
  · exact h
  · refine ⟨h.used.trans (Nat.le_succ _), fun other hother hcode => ?_⟩
    rcases List.mem_append.mp hother with hold | hlast
    · exact h.routes other hold hcode
    · rw [List.mem_singleton.mp hlast]
      exact h.used

variable (userId now) in
theorem import_frame (h : Exportable t) {body : RouteImport} (hvalid : validateSteps body.steps = .ok ())
    {first : ℕ} (hfrom : NewFrom first body.code t) :
    NewFrom first body.code (execRoute t (.importRoute body userId now)).1 ∧
      ∀ id < first, exportRoute (execRoute t (.importRoute body userId now)).1 id = exportRoute t id := by
  have hprepared := importedRoute_prepared t body
  obtain ⟨hm, hroute⟩ := exportable_prepared h hprepared
  have hbetween := newFrom_prepared hfrom hprepared
  have hfound := find_importedRoute t body
  have hcode : (importedRoute t body).2.code = body.code := by simpa using List.find?_some hfound
  have hafter := importedTables_rewritten (importedRoute t body).1 (importedRoute t body).2.id body userId now
  rw [exec_import h hvalid]
  refine ⟨⟨?_, fun other hother hsame => ?_⟩, fun id hid => ?_⟩
  · exact hbetween.used.trans (Nat.le_succ _)
  · obtain ⟨old, hold, hkey⟩ := exists_key hafter.routes hother
    have hid : old.id = other.id := congrArg Prod.fst hkey
    have holdCode : old.code = other.code := congrArg (fun key => key.2.1) hkey
    rw [← hid]
    exact hbetween.routes old hold (holdCode.trans hsame)
  · have hother : (importedRoute t body).2.id ≠ id := by
      have hle := hbetween.routes _ hroute hcode
      exact (hid.trans_le hle).ne'
    show exportRoute (importedTables _ _ body userId now) id = exportRoute t id
    rw [exportRoute_imported hm body hother]
    rcases hprepared with ⟨hsame, -⟩ | ⟨code, name, hsame, -⟩
    · rw [hsame]
    · have hlt : id < t.nextId := hid.trans_le hfrom.used
      rw [hsame]
      exact exportRoute_addRoute hlt code name

end TraceQ.Api
