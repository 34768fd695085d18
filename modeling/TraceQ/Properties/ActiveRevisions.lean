import TraceQ.Api.RouteMeaning

/-! # One active revision

As long as no import activates a revision of a route that has an active one, each route has exactly the active
revision it names, and the revisions keep the steps they were submitted with.
-/
namespace TraceQ.Properties
open Api Quality Tables Results
set_option autoImplicit false
set_option maxHeartbeats 250000

/-! ## Every run -/

/-- Each route has at most one active revision, the one it names; activated revisions are marked, and
revisions and steps are numbered from 1 without a gap. -/
structure OneActive (t : RouteTables) : Prop where
  unique : ∀ route ∈ t.routes, ∀ a ∈ revisionsOf t route.id, ∀ b ∈ revisionsOf t route.id,
    a.status = .active → b.status = .active → a = b
  named : ∀ route ∈ t.routes, ∀ revisionId, route.activeRevisionId = some revisionId ↔
    ∃ revision ∈ revisionsOf t route.id, revision.id = revisionId ∧ revision.status = .active
  marked : ∀ revision ∈ t.revisions, revision.status ≠ .draft → revision.immutableAfter.isSome = true
  numbered : ∀ routeId, (revisionsOf t routeId).map (·.revision) =
    List.range' 1 (revisionsOf t routeId).length
  positions : ∀ revisionId, (stepsOf t revisionId).map (·.position) =
    List.range' 1 (stepsOf t revisionId).length

theorem mem_revisionsOf {t : RouteTables} {routeId : Uuid} {revision : Revision} :
    revision ∈ revisionsOf t routeId ↔ revision ∈ t.revisions ∧ revision.routeId = routeId := by
  simp [revisionsOf]

theorem oneActive_of_valid {t : RouteTables} (h : RoutesValid t) : OneActive t := by
  refine ⟨fun route hroute a ha b hb hactive hactive' => ?_, fun route hroute revisionId => ⟨?_, ?_⟩,
    h.immutable, h.numbered, h.positions⟩
  · obtain ⟨hamem, haowns⟩ := mem_revisionsOf.mp ha
    obtain ⟨hbmem, hbowns⟩ := mem_revisionsOf.mp hb
    have hanamed := (h.active route hroute a hamem haowns).mp hactive
    have hbnamed := (h.active route hroute b hbmem hbowns).mp hactive'
    exact eq_of_nodup_map h.revisionIds hamem hbmem (Option.some.inj (hanamed.symm.trans hbnamed))
  · intro hactive
    obtain ⟨revision, hmem, hid, howns⟩ := h.named route hroute revisionId hactive
    exact ⟨revision, mem_revisionsOf.mpr ⟨hmem, howns⟩, hid,
      (h.active route hroute revision hmem howns).mpr (hid ▸ hactive)⟩
  · rintro ⟨revision, hmem, rfl, hactive⟩
    obtain ⟨hmem, howns⟩ := mem_revisionsOf.mp hmem
    exact (h.active route hroute revision hmem howns).mp hactive

theorem runRoute_valid {calls : List RouteCall}
    (h : Machine.Meets execRoute ImportsInactive {} calls) : RoutesValid (Machine.run execRoute {} calls) :=
  Machine.meets_invariant (C := ImportsInactive) (P := RoutesValid)
    (fun _ _ hvalid hcall => execRoute_valid hvalid hcall) routesValid_empty h

theorem runRoute_keepsSteps (t : RouteTables) (calls : List RouteCall) :
    KeepsSteps t (Machine.run execRoute t calls) :=
  Machine.run_related (P := fun _ => True) (r := KeepsSteps) KeepsSteps.refl KeepsSteps.trans
    (fun t call _ => ⟨trivial, (execRoute_steps t call).keeps⟩) trivial calls

/-- As long as no import activates a revision of a route that has an active one, every state has one active
revision at most per route, and every revision has the submitted steps in their order. -/
theorem one_active_revision {calls : List RouteCall}
    (hmeets : Machine.Meets execRoute ImportsInactive {} calls) :
    OneActive (Machine.run execRoute {} calls) ∧
      ∀ front call rest revisionId, calls = front ++ call :: rest →
        (execRoute (Machine.run execRoute {} front) call).2 = .created revisionId →
        ∃ steps, submitted call = some steps ∧
          stepsOf (Machine.run execRoute {} calls) revisionId = stepRows revisionId steps := by
  refine ⟨oneActive_of_valid (runRoute_valid hmeets), ?_⟩
  rintro front call rest revisionId rfl hcreated
  have hfront := runRoute_valid (Machine.meets_append.mp hmeets).1
  obtain ⟨steps, hsubmitted, hlt, hsteps⟩ :=
    (execRoute_steps (Machine.run execRoute {} front) call).created revisionId hcreated
  refine ⟨steps, hsubmitted, ?_⟩
  have hlater := runRoute_keepsSteps (execRoute (Machine.run execRoute {} front) call).1 rest
  rw [Machine.run_append, Machine.run_cons, hlater.steps revisionId hlt, hsteps hfront]

/-! ### An import beside an active revision -/

def turning : List StepInput := [{ operationId := "OP-TURN", operationName := "Turning" }]

def defaultRoute (activate : Bool) : RouteImport where
  code := "ROUTE-DEFAULT"
  name := "Default"
  steps := turning
  activate := activate

/-- The second revision is imported as a draft and then activated. -/
def draftImported : List RouteCall :=
  [.importRoute (defaultRoute true) 100 10, .importRoute (defaultRoute false) 100 20, .activate 0 2 30]

theorem one_active_revision_draft_imported : OneActive (Machine.run execRoute {} draftImported) ∧
    ∀ front call rest revisionId, draftImported = front ++ call :: rest →
      (execRoute (Machine.run execRoute {} front) call).2 = .created revisionId →
      ∃ steps, submitted call = some steps ∧
        stepsOf (Machine.run execRoute {} draftImported) revisionId = stepRows revisionId steps := by
  refine one_active_revision ⟨?_, ?_, trivial, trivial⟩
  · intro _ route hfound
    cases hfound
  · intro hactivate
    cases hactivate

/-- A second activating import leaves two active revisions of one route. -/
theorem two_active_revisions : ¬ ∀ calls : List RouteCall, OneActive (Machine.run execRoute {} calls) := by
  intro h
  have hunique := (h [.importRoute (defaultRoute true) 100 10, .importRoute (defaultRoute true) 100 20]).unique
  have htwo : ∃ route ∈ (Machine.run execRoute {} [.importRoute (defaultRoute true) 100 10,
        .importRoute (defaultRoute true) 100 20]).routes,
      ∃ a ∈ revisionsOf (Machine.run execRoute {} [.importRoute (defaultRoute true) 100 10,
        .importRoute (defaultRoute true) 100 20]) route.id,
      ∃ b ∈ revisionsOf (Machine.run execRoute {} [.importRoute (defaultRoute true) 100 10,
        .importRoute (defaultRoute true) 100 20]) route.id,
      a.status = .active ∧ b.status = .active ∧ a ≠ b := by decide +kernel
  obtain ⟨route, hroute, a, ha, b, hb, hactive, hactive', hne⟩ := htwo
  exact hne (hunique route hroute a ha b hb hactive hactive')

end TraceQ.Properties
