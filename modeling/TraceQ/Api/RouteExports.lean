import TraceQ.Api.RouteMeaning

/-! # Exported routes

`_serialize` and `export_route` of `backend/app/api/routes.py`, what they say of a route, and what `import_route`
makes of it when an export is posted again. The ids of steps are left out.
-/
namespace TraceQ.Api
open Quality Tables Results
set_option autoImplicit false
set_option maxHeartbeats 250000

/-! ## Exporting -/

structure ExportedStep where
  position : ℕ
  operationId : String
  operationName : String
  controlPointId : Option String
  required : Bool
  inspectionScope : Option InspectionScope
  trustPolicyId : Option Uuid
deriving DecidableEq

structure ExportedRevision where
  id : Uuid
  revision : ℕ
  status : RevisionStatus
  immutableAfter : Option Instant
  steps : List ExportedStep
deriving DecidableEq

structure ExportedRoute where
  id : Uuid
  code : String
  name : String
  activeRevisionId : Option Uuid
  revisions : List ExportedRevision
deriving DecidableEq

def exportStep (step : Step) : ExportedStep where
  position := step.position
  operationId := step.operationId
  operationName := step.operationName
  controlPointId := step.controlPointId
  required := step.requiredInspection
  inspectionScope := step.inspectionScope
  trustPolicyId := step.trustPolicyId

def exportRevision (t : RouteTables) (revision : Revision) : ExportedRevision where
  id := revision.id
  revision := revision.revision
  status := revision.status
  immutableAfter := revision.immutableAfter
  steps := ((stepsOf t revision.id).insertionSort fun a b => a.position ≤ b.position).map exportStep

/-- `_serialize`. -/
def serialize (t : RouteTables) (route : Route) : ExportedRoute where
  id := route.id
  code := route.code
  name := route.name
  activeRevisionId := route.activeRevisionId
  revisions :=
    ((revisionsOf t route.id).insertionSort fun a b => a.revision ≤ b.revision).map (exportRevision t)

def exportRoute (t : RouteTables) (routeId : Uuid) : Except RouteError ExportedRoute := do
  let route ← routeOr404 t routeId "Route"
  return serialize t route

/-! ## Posting an export -/

/-- What `StepInput` makes of an exported step. -/
def ExportedStep.input (step : ExportedStep) : Option StepInput :=
  if h : step.required = true → truthy step.controlPointId = true then
    some
      { operationId := step.operationId
        operationName := step.operationName
        controlPointId := step.controlPointId
        required := step.required
        inspectionScope := step.inspectionScope
        trustPolicyId := step.trustPolicyId
        required_has_control_point := h }
  else none

/-- The body that posts a revision of an exported route, to be activated if it is the active one. -/
def ExportedRoute.body (route : ExportedRoute) (revision : ExportedRevision) : Option RouteImport := do
  let steps ← revision.steps.mapM ExportedStep.input
  if h : steps ≠ [] then
    some
      { code := route.code
        name := route.name
        steps := steps
        min_length := h
        activate := decide (route.activeRevisionId = some revision.id) }
  else none

def ExportedRoute.bodies (route : ExportedRoute) : Option (List RouteImport) := route.revisions.mapM route.body

/-! ## What an export says -/

structure RevisionContent where
  revision : ℕ
  steps : List ExportedStep
  active : Bool
deriving DecidableEq

/-- A route without the ids and the times of its rows. -/
structure RouteContent where
  code : String
  name : String
  revisions : List RevisionContent
deriving DecidableEq

def ExportedRoute.content (route : ExportedRoute) : RouteContent where
  code := route.code
  name := route.name
  revisions := route.revisions.map fun revision =>
    ⟨revision.revision, revision.steps, decide (route.activeRevisionId = some revision.id)⟩

def inactive (revision : RevisionContent) : RevisionContent := { revision with active := false }

/-- The steps of a body as they are exported. -/
def exportedSteps (steps : List StepInput) : List ExportedStep := (stepRows 0 steps).map exportStep

/-- What an import does to a route. -/
def RouteContent.imports (content : RouteContent) (body : RouteImport) : RouteContent :=
  { content with
    revisions := (if body.activate then content.revisions.map inactive else content.revisions) ++
      [⟨content.revisions.length + 1, exportedSteps body.steps, body.activate⟩] }

/-! ## Steps as they were submitted -/

theorem stepRows_exported (revisionId : Uuid) (steps : List StepInput) :
    (stepRows revisionId steps).map exportStep = exportedSteps steps := by
  simp only [exportedSteps, stepRows, List.map_map]
  rfl

theorem exportStep_input (revisionId : Uuid) (entry : StepInput × ℕ) :
    (exportStep
      { routeRevisionId := revisionId
        position := entry.2
        operationId := entry.1.operationId
        operationName := entry.1.operationName
        controlPointId := entry.1.controlPointId
        requiredInspection := entry.1.required
        inspectionScope := entry.1.inspectionScope
        trustPolicyId := entry.1.trustPolicyId }).input = some entry.1 := by
  unfold ExportedStep.input exportStep
  rw [dif_pos entry.1.required_has_control_point]

/-- Exported steps are accepted as they were submitted. -/
theorem exportedSteps_input (steps : List StepInput) :
    (exportedSteps steps).mapM ExportedStep.input = some steps := by
  have hrows : ∀ first : ℕ, ((steps.zipIdx first).mapM fun entry => some entry.1) = some steps := by
    intro first
    induction steps generalizing first with
    | nil => rfl
    | cons step rest ih =>
      rw [List.zipIdx_cons, List.mapM_cons, ih]
      rfl
  rw [exportedSteps, stepRows, List.map_map, List.mapM_map]
  refine Eq.trans (congrArg (fun f => (steps.zipIdx 1).mapM f) ?_) (hrows 1)
  funext entry
  exact exportStep_input 0 entry

theorem stepRows_sorted (revisionId : Uuid) (steps : List StepInput) :
    (stepRows revisionId steps).insertionSort (fun a b => a.position ≤ b.position) = stepRows revisionId steps := by
  apply List.Pairwise.insertionSort_eq
  have hpositions := stepRows_positions revisionId steps
  have hsorted : ((stepRows revisionId steps).map (·.position)).Pairwise (· ≤ ·) := by
    rw [hpositions]
    exact List.pairwise_le_range'
  exact List.pairwise_map.mp hsorted

/-! ## Tables that can be exported -/

/-- What of a revision no update changes. -/
def revisionKey (revision : Revision) : Uuid × Uuid × ℕ := (revision.id, revision.routeId, revision.revision)

def routeKey (route : Route) : Uuid × String × String := (route.id, route.code, route.name)

/-- Ids are unique and used up, revisions are numbered from 1, and steps are as they were submitted. -/
structure Exportable (t : RouteTables) : Prop where
  routeIds : (t.routes.map (·.id)).Nodup
  routeFresh : ∀ route ∈ t.routes, route.id < t.nextId
  activeFresh : ∀ route ∈ t.routes, ∀ id, route.activeRevisionId = some id → id < t.nextId
  revisionIds : (t.revisions.map (·.id)).Nodup
  revisionFresh : ∀ revision ∈ t.revisions, revision.id < t.nextId ∧ revision.routeId < t.nextId
  stepFresh : ∀ step ∈ t.steps, step.routeRevisionId < t.nextId
  numbered : ∀ routeId, (revisionsOf t routeId).map (·.revision) =
    List.range' 1 (revisionsOf t routeId).length
  submitted : ∀ revision ∈ t.revisions, ∃ steps, steps ≠ [] ∧ validateSteps steps = .ok () ∧
    stepsOf t revision.id = stepRows revision.id steps

/-- The columns `status`, `immutable_after` and `active_revision_id` may change, the last to a used id. -/
structure Rewritten (t t' : RouteTables) : Prop where
  routes : t'.routes.map routeKey = t.routes.map routeKey
  active : ∀ route ∈ t'.routes, ∀ id, route.activeRevisionId = some id →
    id < t.nextId ∨ ∃ old ∈ t.routes, old.activeRevisionId = some id
  revisions : t'.revisions.map revisionKey = t.revisions.map revisionKey
  steps : t'.steps = t.steps
  nextId : t'.nextId = t.nextId

/-- The numbers of the revisions of a route are among their keys. -/
theorem revisionsOf_keys {t t' : RouteTables} (h : t'.revisions.map revisionKey = t.revisions.map revisionKey)
    (routeId : Uuid) :
    (revisionsOf t' routeId).map (·.revision) = (revisionsOf t routeId).map (·.revision) := by
  have hnumbers : ∀ rows : List Revision, ((rows.filter fun row => decide (row.routeId = routeId)).map
      (·.revision)) = (((rows.map revisionKey).filter fun key => decide (key.2.1 = routeId)).map (·.2.2)) := by
    intro rows
    rw [List.filter_map, List.map_map]
    rfl
  rw [revisionsOf, revisionsOf, hnumbers, hnumbers, h]

theorem exists_key {α κ : Type} {keyOf : α → κ} {rows rows' : List α} (h : rows'.map keyOf = rows.map keyOf)
    {row : α} (hrow : row ∈ rows') : ∃ old ∈ rows, keyOf old = keyOf row := by
  have hmem : keyOf row ∈ rows'.map keyOf := List.mem_map_of_mem hrow
  rw [h] at hmem
  exact List.mem_map.mp hmem

theorem Exportable.rewritten {t t' : RouteTables} (h : Exportable t) (hsame : Rewritten t t') : Exportable t' := by
  have hrouteIds : t'.routes.map (·.id) = t.routes.map (·.id) := by
    have hids := congrArg (List.map Prod.fst) hsame.routes
    rw [List.map_map, List.map_map] at hids
    exact hids
  have hrevisionIds : t'.revisions.map (·.id) = t.revisions.map (·.id) := by
    have hids := congrArg (List.map Prod.fst) hsame.revisions
    rw [List.map_map, List.map_map] at hids
    exact hids
  have hstepsOf : ∀ id, stepsOf t' id = stepsOf t id := by
    intro id
    rw [stepsOf, stepsOf, hsame.steps]
  refine
    { routeIds := hrouteIds ▸ h.routeIds
      routeFresh := fun route hroute => ?_
      activeFresh := fun route hroute id hactive => ?_
      revisionIds := hrevisionIds ▸ h.revisionIds
      revisionFresh := fun revision hrevision => ?_
      stepFresh := by rw [hsame.steps, hsame.nextId]; exact h.stepFresh
      numbered := fun routeId => ?_
      submitted := fun revision hrevision => ?_ }
  · obtain ⟨old, hold, hkey⟩ := exists_key hsame.routes hroute
    have hid : old.id = route.id := congrArg Prod.fst hkey
    rw [hsame.nextId, ← hid]
    exact h.routeFresh old hold
  · rw [hsame.nextId]
    rcases hsame.active route hroute id hactive with hlt | ⟨old, hold, hwas⟩
    · exact hlt
    · exact h.activeFresh old hold id hwas
  · obtain ⟨old, hold, hkey⟩ := exists_key hsame.revisions hrevision
    have hid : old.id = revision.id := congrArg Prod.fst hkey
    have hroute : old.routeId = revision.routeId := congrArg (fun key => key.2.1) hkey
    rw [hsame.nextId, ← hid, ← hroute]
    exact h.revisionFresh old hold
  · have hkeys := revisionsOf_keys hsame.revisions routeId
    have hlength := congrArg List.length hkeys
    rw [List.length_map, List.length_map] at hlength
    rw [hkeys, hlength]
    exact h.numbered routeId
  · obtain ⟨old, hold, hkey⟩ := exists_key hsame.revisions hrevision
    have hid : old.id = revision.id := congrArg Prod.fst hkey
    rw [hstepsOf, ← hid]
    exact h.submitted old hold

/-! ## Exports of such tables -/

section Exports
variable {t : RouteTables} (h : Exportable t)
include h

theorem serialize_revisions (route : Route) :
    (serialize t route).revisions = (revisionsOf t route.id).map (exportRevision t) := by
  have hsorted : (revisionsOf t route.id).Pairwise fun a b => a.revision ≤ b.revision := by
    have hnumbers : ((revisionsOf t route.id).map (·.revision)).Pairwise (· ≤ ·) := by
      rw [h.numbered]
      exact List.pairwise_le_range'
    exact List.pairwise_map.mp hnumbers
  rw [serialize, List.Pairwise.insertionSort_eq hsorted]

theorem exportRevision_steps {revision : Revision} (hrevision : revision ∈ t.revisions) :
    ∃ steps, steps ≠ [] ∧ validateSteps steps = .ok () ∧
      (exportRevision t revision).steps = exportedSteps steps := by
  obtain ⟨steps, hsome, hvalid, hsteps⟩ := h.submitted revision hrevision
  refine ⟨steps, hsome, hvalid, ?_⟩
  rw [exportRevision, hsteps, stepRows_sorted, stepRows_exported]

theorem exportRoute_of_mem {route : Route} (hroute : route ∈ t.routes) :
    exportRoute t route.id = .ok (serialize t route) := by
  have hfound : t.routes.find? (fun row => decide (row.id = route.id)) = some route :=
    (find?_key_eq_some_iff h.routeIds).mpr ⟨hroute, rfl⟩
  simp only [exportRoute, routeOr404, hfound]
  rfl

end Exports

end TraceQ.Api
