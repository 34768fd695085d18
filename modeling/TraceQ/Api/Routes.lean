import TraceQ.Api.Nonconformances
import TraceQ.Library.Machine

/-! # Routes

`backend/app/api/routes.py` with `validate_steps` and `StepInput` of `backend/app/domain/routes.py`, over the
rows of the three route tables and under the trigger that makes activated revisions immutable. The permission
checks come before these functions; the audit trail is left out.
-/
namespace TraceQ.Api
open Quality Tables
set_option autoImplicit false
set_option maxHeartbeats 250000

/-! ## Tables -/

inductive RevisionStatus where
  | draft | active | superseded
deriving DecidableEq, Repr

/-- A route with its name. -/
structure Route extends RouteDefinition where
  name : String
deriving DecidableEq

structure Revision extends RouteRevision where
  status : RevisionStatus := .draft
  immutableAfter : Option Instant := none
  createdBy : Option Uuid
deriving DecidableEq

structure Step extends RouteStep where
  operationName : String
  inspectionScope : Option InspectionScope
  trustPolicyId : Option Uuid
deriving DecidableEq

structure RouteTables where
  routes : List Route := []
  revisions : List Revision := []
  steps : List Step := []
  nextId : ℕ := 0

/-- What replay reads of the route tables. -/
def RouteTables.configure (t : RouteTables) (config : Configuration) : Configuration :=
  { config with
    routeDefinitions := t.routes.map (·.toRouteDefinition)
    routeRevisions := t.revisions.map (·.toRouteRevision)
    routeSteps := t.steps.map (·.toRouteStep) }

/-! ## Requests -/

structure StepInput where
  operationId : String
  operationName : String
  controlPointId : Option String := none
  required : Bool := false
  inspectionScope : Option InspectionScope := none
  trustPolicyId : Option Uuid := none
  /-- A required inspection needs `control_point_id`. -/
  required_has_control_point : required = true → truthy controlPointId = true := by decide

structure RouteCreate where
  code : String
  name : String
  steps : List StepInput
  min_length : steps ≠ [] := by decide

structure RevisionCreate where
  steps : List StepInput
  min_length : steps ≠ [] := by decide

structure RouteImport extends RouteCreate where
  activate : Bool := false

/-! ## Errors -/

inductive RouteError where
  | refused (error : TraceQError)
  /-- SQLSTATE 55000 of `traceq_route_revision_immutable`. -/
  | immutable
deriving DecidableEq

def invalidRoute (message : String) : RouteError := .refused ⟨"INVALID_ROUTE", message, 422⟩

def validateSteps (steps : List StepInput) : Except RouteError Unit :=
  if ¬ (steps.map (·.operationId)).Nodup then
    .error (invalidRoute "Operation IDs must be unique within a revision")
  else if ¬ ((steps.filterMap (·.controlPointId)).filter fun point => !point.isEmpty).Nodup then
    .error (invalidRoute "Control point IDs must be unique within a revision")
  else .ok ()

/-! ## Creating revisions -/

/-- `enumerate(steps, start=1)`. -/
def stepRows (revisionId : Uuid) (steps : List StepInput) : List Step :=
  (steps.zipIdx 1).map fun entry =>
    { routeRevisionId := revisionId
      position := entry.2
      operationId := entry.1.operationId
      operationName := entry.1.operationName
      controlPointId := entry.1.controlPointId
      requiredInspection := entry.1.required
      inspectionScope := entry.1.inspectionScope
      trustPolicyId := entry.1.trustPolicyId }

def revisionsOf (t : RouteTables) (routeId : Uuid) : List Revision :=
  t.revisions.filter fun revision => decide (revision.routeId = routeId)

def stepsOf (t : RouteTables) (revisionId : Uuid) : List Step :=
  t.steps.filter fun step => decide (step.routeRevisionId = revisionId)

/-- `max(revision) or 0`. -/
def currentRevision (t : RouteTables) (routeId : Uuid) : ℕ :=
  ((revisionsOf t routeId).map (·.revision)).foldl max 0

/-- The row that `_create_revision` inserts. -/
def newRevision (t : RouteTables) (routeId userId : Uuid) : Revision where
  id := t.nextId
  routeId := routeId
  revision := currentRevision t routeId + 1
  createdBy := some userId

/-- `_create_revision`. -/
def createRevisionOf (t : RouteTables) (routeId : Uuid) (steps : List StepInput) (userId : Uuid) :
    Except RouteError (RouteTables × Revision) := do
  validateSteps steps
  let revision := newRevision t routeId userId
  return ({ t with
    revisions := t.revisions ++ [revision]
    steps := t.steps ++ stepRows revision.id steps
    nextId := t.nextId + 1 }, revision)

def newRoute (t : RouteTables) (code name : String) : Route where
  id := t.nextId
  code := code
  activeRevisionId := none
  name := name

def addRoute (t : RouteTables) (route : Route) : RouteTables :=
  { t with routes := t.routes ++ [route], nextId := t.nextId + 1 }

def findRouteByCode (t : RouteTables) (code : String) : Option Route :=
  t.routes.find? fun route => decide (route.code = code)

def createRoute (t : RouteTables) (body : RouteCreate) (userId : Uuid) :
    Except RouteError (RouteTables × Uuid) :=
  match findRouteByCode t body.code with
  | some _ => .error (.refused ⟨"ROUTE_CODE_EXISTS", "Route code already exists", 409⟩)
  | none => do
      let route := newRoute t body.code body.name
      let (created, revision) ← createRevisionOf (addRoute t route) route.id body.steps userId
      return (created, revision.id)

/-- `db.get(RouteDefinition, …)`, or the error about `entity`. -/
def routeOr404 (t : RouteTables) (routeId : Uuid) (entity : String) : Except RouteError Route :=
  match t.routes.find? fun route => decide (route.id = routeId) with
  | some route => .ok route
  | none => .error (.refused (notFound entity))

def createRevision (t : RouteTables) (routeId : Uuid) (body : RevisionCreate) (userId : Uuid) :
    Except RouteError (RouteTables × Uuid) := do
  let route ← routeOr404 t routeId "Route"
  let (created, revision) ← createRevisionOf t route.id body.steps userId
  return (created, revision.id)

/-! ## Activation -/

/-- `traceq_route_revision_immutable`: an activated row may only be superseded. -/
def immutableGuard (old new : Revision) : Bool :=
  old.immutableAfter.isNone ||
    (decide (old.status = .active) && decide (new.status = .superseded) &&
      decide ({ new with status := old.status } = old))

/-- The `UPDATE` of a row whose loaded form is `old`; there is none where no attribute differs. -/
def updateRevision (t : RouteTables) (old new : Revision) : Except RouteError RouteTables :=
  if new = old then .ok t
  else if immutableGuard old new then
    .ok { t with revisions := modifyWhere (fun row => decide (row.id = old.id)) (fun _ => new) t.revisions }
  else .error .immutable

def findRevision (t : RouteTables) (revisionId : Uuid) : Option Revision :=
  t.revisions.find? fun revision => decide (revision.id = revisionId)

def revisionOr404 (t : RouteTables) (revisionId routeId : Uuid) : Except RouteError Revision :=
  match findRevision t revisionId with
  | some revision =>
      if revision.routeId = routeId then .ok revision
      else .error (.refused (notFound "Route revision"))
  | none => .error (.refused (notFound "Route revision"))

/-- The active revision of the route, unless it is the one to be activated. -/
def formerRevision (t : RouteTables) (route : Route) (revisionId : Uuid) : Option Revision :=
  match route.activeRevisionId with
  | some activeId => if activeId = revisionId then none else findRevision t activeId
  | none => none

def supersedeFormer (t : RouteTables) (route : Route) (revisionId : Uuid) :
    Except RouteError RouteTables :=
  match formerRevision t route revisionId with
  | some old => updateRevision t old { old with status := .superseded }
  | none => .ok t

def activated (revision : Revision) (now : Instant) : Revision :=
  { revision with
    status := .active
    immutableAfter := some (revision.immutableAfter.getD now) }

def setActive (t : RouteTables) (routeId revisionId : Uuid) : RouteTables :=
  { t with
    routes := modifyWhere (fun row => decide (row.id = routeId))
      (fun row => { row with activeRevisionId := some revisionId }) t.routes }

def activateRevision (t : RouteTables) (routeId revisionId : Uuid) (now : Instant) :
    Except RouteError RouteTables := do
  let route ← routeOr404 t routeId "Route revision"
  let revision ← revisionOr404 t revisionId route.id
  let superseded ← supersedeFormer t route revision.id
  let changed ← updateRevision superseded revision (activated revision now)
  return setActive changed route.id revision.id

/-- The route of an import, created when no route has its code. -/
def importedRoute (t : RouteTables) (body : RouteImport) : RouteTables × Route :=
  match findRouteByCode t body.code with
  | some route => (t, route)
  | none => (addRoute t (newRoute t body.code body.name), newRoute t body.code body.name)

/-- An activating import leaves the former active revision as it is. -/
def importRoute (t : RouteTables) (body : RouteImport) (userId : Uuid) (now : Instant) :
    Except RouteError (RouteTables × Uuid) := do
  let found := importedRoute t body
  let (created, revision) ← createRevisionOf found.1 found.2.id body.steps userId
  if body.activate then
    let changed ← updateRevision created revision (activated revision now)
    return (setActive changed found.2.id revision.id, revision.id)
  else return (created, revision.id)

/-! ## Calls -/

inductive RouteCall where
  | createRoute (body : RouteCreate) (userId : Uuid)
  | createRevision (routeId : Uuid) (body : RevisionCreate) (userId : Uuid)
  | activate (routeId revisionId : Uuid) (now : Instant)
  | importRoute (body : RouteImport) (userId : Uuid) (now : Instant)

inductive RouteResponse where
  | created (revisionId : Uuid)
  | done
  | raised (error : RouteError)
deriving DecidableEq

def commitRevision (t : RouteTables) : Except RouteError (RouteTables × Uuid) → RouteTables × RouteResponse
  | .ok (committed, revisionId) => (committed, .created revisionId)
  | .error error => (t, .raised error)

def execRoute (t : RouteTables) : RouteCall → RouteTables × RouteResponse
  | .createRoute body userId => commitRevision t (createRoute t body userId)
  | .createRevision routeId body userId => commitRevision t (createRevision t routeId body userId)
  | .activate routeId revisionId now =>
      match activateRevision t routeId revisionId now with
      | .ok committed => (committed, .done)
      | .error error => (t, .raised error)
  | .importRoute body userId now => commitRevision t (importRoute t body userId now)

end TraceQ.Api
