import TraceQ.Api.ImportMeaning

/-! # Exports of routes posted again

Whatever has been done to the routes, the export of a route can be posted to `import_route` revision by revision:
nothing is refused, the copy exports the same revisions with the same steps and the same active one, and no other
route is touched.
-/
namespace TraceQ.Properties
open Api Quality Tables Results
set_option autoImplicit false
set_option maxHeartbeats 250000

variable {t : RouteTables} {userId : Uuid} {now : Instant}

/-! ## A whole export -/

/-- The tables after the bodies have been posted one after the other. -/
def importAll (t : RouteTables) (bodies : List RouteImport) (userId : Uuid) (now : Instant) : RouteTables :=
  Machine.run execRoute t (bodies.map fun body => .importRoute body userId now)

variable (userId now) in
theorem importAll_content (h : Exportable t) {first : ℕ} {code name : String} (hfrom : NewFrom first code t)
    {bodies : List RouteImport}
    (hbodies : ∀ body ∈ bodies, body.code = code ∧ body.name = name ∧ validateSteps body.steps = .ok ()) :
    Exportable (importAll t bodies userId now) ∧
      contentAt (importAll t bodies userId now) code name =
        bodies.foldl RouteContent.imports (contentAt t code name) ∧
      ∀ id < first, exportRoute (importAll t bodies userId now) id = exportRoute t id := by
  induction bodies generalizing t with
  | nil => exact ⟨h, rfl, fun _ _ => rfl⟩
  | cons body rest ih =>
    obtain ⟨hcode, hname, hvalid⟩ := hbodies body List.mem_cons_self
    have hnext := execRoute_exportable h (.importRoute body userId now)
    have hcontent := import_content userId now h hvalid name
    obtain ⟨hfrom', hframe⟩ := import_frame userId now h hvalid (hcode ▸ hfrom)
    rw [hcode] at hcontent hfrom'
    rw [hname] at hcontent
    obtain ⟨hend, hfold, hkept⟩ := ih hnext hfrom' fun other hother => hbodies other (List.mem_cons_of_mem _ hother)
    refine ⟨hend, ?_, fun id hid => (hkept id hid).trans (hframe id hid)⟩
    rw [List.foldl_cons, ← hcontent]
    exact hfold

/-- The body says what the revision exports. -/
structure Reposts (active : Option Uuid) (revision : ExportedRevision) (body : RouteImport) : Prop where
  steps : exportedSteps body.steps = revision.steps
  activate : body.activate = decide (active = some revision.id)

/-- What an export says of a revision. -/
def entry (active : Option Uuid) (revision : ExportedRevision) : RevisionContent :=
  ⟨revision.revision, revision.steps, decide (active = some revision.id)⟩

theorem inactive_eq {revision : RevisionContent} (h : revision.active = false) : inactive revision = revision := by
  rw [inactive, ← h]

/-- The bodies of an export rebuild it: at most one of them activates, and the revisions before it are inactive. -/
theorem foldl_imports {active : Option Uuid} {revisions : List ExportedRevision} {bodies : List RouteImport}
    (hbodies : List.Forall₂ (Reposts active) revisions bodies) (hids : (revisions.map (·.id)).Nodup)
    (content : RouteContent)
    (hnumbers : revisions.map (·.revision) = List.range' (content.revisions.length + 1) revisions.length)
    (hinactive : ∀ row ∈ content.revisions, row.active = true → ∀ revision ∈ revisions, active ≠ some revision.id) :
    bodies.foldl RouteContent.imports content =
      { content with revisions := content.revisions ++ revisions.map (entry active) } := by
  induction hbodies generalizing content with
  | nil => simp
  | @cons revision body rest bodies hbody hrest ih =>
    rw [List.map_cons, List.nodup_cons] at hids
    rw [List.map_cons, List.length_cons, List.range'_succ, List.cons.injEq] at hnumbers
    have hstep : content.imports body =
        { content with revisions := content.revisions ++ [entry active revision] } := by
      have hkept : (if body.activate then content.revisions.map inactive else content.revisions) =
          content.revisions := by
        by_cases hactivate : body.activate = true
        · rw [if_pos hactivate]
          have hactive : active = some revision.id := of_decide_eq_true (hbody.activate ▸ hactivate)
          refine (List.map_congr_left fun row hrow => ?_).trans (List.map_id _)
          apply inactive_eq
          by_contra hrowActive
          rw [Bool.not_eq_false] at hrowActive
          exact hinactive row hrow hrowActive revision List.mem_cons_self hactive
        · rw [if_neg hactivate]
      rw [RouteContent.imports, hkept, hbody.steps, hbody.activate, entry, hnumbers.1]
    rw [List.foldl_cons, hstep, ih hids.2]
    · simp
    · simpa using hnumbers.2
    · intro row hrow hactive other hother
      rcases List.mem_append.mp hrow with hold | hnew
      · exact hinactive row hold hactive other (List.mem_cons_of_mem _ hother)
      · rw [List.mem_singleton.mp hnew] at hactive
        have hsame : active = some revision.id := of_decide_eq_true hactive
        intro hotherActive
        have hid : other.id = revision.id := Option.some.inj (hotherActive.symm.trans hsame)
        exact hids.1 (hid ▸ List.mem_map_of_mem hother)

/-- Every revision of an export can be posted. -/
theorem bodies_of_steps (route : ExportedRoute) {revisions : List ExportedRevision}
    (hsteps : ∀ revision ∈ revisions, ∃ steps, steps ≠ [] ∧ validateSteps steps = .ok () ∧
      revision.steps = exportedSteps steps) :
    ∃ bodies, revisions.mapM route.body = some bodies ∧
      List.Forall₂ (Reposts route.activeRevisionId) revisions bodies ∧
      ∀ body ∈ bodies, body.code = route.code ∧ body.name = route.name ∧ validateSteps body.steps = .ok () := by
  induction revisions with
  | nil => exact ⟨[], rfl, .nil, by simp⟩
  | cons revision rest ih =>
    obtain ⟨bodies, hbodies, hreposts, hvalid⟩ := ih fun other hother => hsteps other (List.mem_cons_of_mem _ hother)
    obtain ⟨steps, hsome, hchecked, hexported⟩ := hsteps revision List.mem_cons_self
    obtain ⟨body, hbody, hbodySteps, hactivate, hnames⟩ : ∃ body, route.body revision = some body ∧
        body.steps = steps ∧ body.activate = decide (route.activeRevisionId = some revision.id) ∧
        body.code = route.code ∧ body.name = route.name := by
      have hinput : revision.steps.mapM ExportedStep.input = some steps := hexported ▸ exportedSteps_input steps
      simp only [ExportedRoute.body, hinput, Option.bind_eq_bind, Option.bind_some, dif_pos hsome]
      exact ⟨_, rfl, rfl, rfl, rfl, rfl⟩
    refine ⟨body :: bodies, ?_, .cons ⟨?_, hactivate⟩ hreposts, fun other hother => ?_⟩
    · rw [List.mapM_cons, hbody, hbodies]
      rfl
    · rw [hbodySteps, hexported]
    · rcases List.mem_cons.mp hother with rfl | hmem
      · exact ⟨hnames.1, hnames.2, hbodySteps ▸ hchecked⟩
      · exact hvalid other hmem

theorem exportRoute_ok {routeId : Uuid} {exported : ExportedRoute} (h : exportRoute t routeId = .ok exported) :
    ∃ route ∈ t.routes, exported = serialize t route := by
  obtain ⟨route, hfound, hserialize⟩ := bind_ok.mp h
  exact ⟨route, (routeOr404_ok hfound).1, (pure_ok.mp hserialize).symm⟩

/-- The bodies of an export rebuild its content. -/
theorem bodies_rebuild (h : Exportable t) (route : Route) :
    ∃ bodies, (serialize t route).bodies = some bodies ∧
      (∀ body ∈ bodies, body.code = route.code ∧ body.name = route.name ∧ validateSteps body.steps = .ok ()) ∧
      bodies.foldl RouteContent.imports ⟨route.code, route.name, []⟩ = (serialize t route).content := by
  have hrevisions := serialize_revisions h route
  have hmem : ∀ revision ∈ (serialize t route).revisions, ∃ row ∈ revisionsOf t route.id,
      revision = exportRevision t row := by
    intro revision hrevision
    rw [hrevisions] at hrevision
    obtain ⟨row, hrow, rfl⟩ := List.mem_map.mp hrevision
    exact ⟨row, hrow, rfl⟩
  have hsteps : ∀ revision ∈ (serialize t route).revisions, ∃ steps, steps ≠ [] ∧ validateSteps steps = .ok () ∧
      revision.steps = exportedSteps steps := by
    intro revision hrevision
    obtain ⟨row, hrow, rfl⟩ := hmem revision hrevision
    exact exportRevision_steps h (List.mem_of_mem_filter hrow)
  obtain ⟨bodies, hbodies, hreposts, hvalid⟩ := bodies_of_steps (serialize t route) hsteps
  have hids : ((serialize t route).revisions.map (·.id)).Nodup := by
    have hcolumn : (serialize t route).revisions.map (·.id) = (revisionsOf t route.id).map (·.id) := by
      rw [hrevisions, List.map_map]
      rfl
    rw [hcolumn]
    exact h.revisionIds.sublist (List.filter_sublist.map _)
  have hnumbers : (serialize t route).revisions.map (·.revision) =
      List.range' 1 (serialize t route).revisions.length := by
    have hcolumn : (serialize t route).revisions.map (·.revision) = (revisionsOf t route.id).map (·.revision) := by
      rw [hrevisions, List.map_map]
      rfl
    rw [hcolumn, h.numbered, hrevisions, List.length_map]
  exact ⟨bodies, hbodies, hvalid, foldl_imports hreposts hids ⟨route.code, route.name, []⟩ hnumbers (by simp)⟩

/-- The export of a route can be posted to any routes that do not have its code: no import is refused, the copy
has the same content, and no other route exports anything else than before. -/
theorem export_reimports {calls others : List RouteCall} {routeId : Uuid} {exported : ExportedRoute}
    (hexport : exportRoute (Machine.run execRoute {} calls) routeId = .ok exported)
    (hnew : ∀ route ∈ (Machine.run execRoute {} others).routes, route.code ≠ exported.code)
    (userId : Uuid) (now : Instant) :
    ∃ bodies, exported.bodies = some bodies ∧
      (∀ front body rest, bodies = front ++ body :: rest → ∃ revisionId,
        (execRoute (importAll (Machine.run execRoute {} others) front userId now)
          (.importRoute body userId now)).2 = .created revisionId) ∧
      (∃ copyId copy, exportRoute (importAll (Machine.run execRoute {} others) bodies userId now) copyId = .ok copy ∧
        copy.content = exported.content) ∧
      ∀ id < (Machine.run execRoute {} others).nextId,
        exportRoute (importAll (Machine.run execRoute {} others) bodies userId now) id =
          exportRoute (Machine.run execRoute {} others) id := by
  obtain ⟨hsource, hfurnished⟩ := run_exportable calls
  obtain ⟨htarget, -⟩ := run_exportable others
  generalize Machine.run execRoute {} calls = source at hexport hsource hfurnished
  generalize Machine.run execRoute {} others = target at hnew htarget
  obtain ⟨route, hroute, rfl⟩ := exportRoute_ok hexport
  obtain ⟨bodies, hbodies, hvalid, hrebuilt⟩ := bodies_rebuild hsource route
  have hfrom : NewFrom target.nextId route.code target :=
    ⟨le_rfl, fun other hother hcode => absurd hcode (hnew other hother)⟩
  have hnone : findRouteByCode target route.code = none := by
    rw [findRouteByCode, List.find?_eq_none]
    intro other hother hcode
    exact hnew other hother (of_decide_eq_true hcode)
  obtain ⟨hafter, hcontent, hkept⟩ := importAll_content userId now htarget hfrom hvalid
  have hstart : contentAt target route.code route.name = ⟨route.code, route.name, []⟩ := by
    rw [contentAt, hnone]
    rfl
  rw [hstart, hrebuilt] at hcontent
  refine ⟨bodies, hbodies, fun front body rest heq => ?_, ?_, hkept⟩
  · have hfront : ∀ other ∈ front, other.code = route.code ∧ other.name = route.name ∧
        validateSteps other.steps = .ok () :=
      fun other hother => hvalid other (heq ▸ List.mem_append_left _ hother)
    have hbefore := (importAll_content userId now htarget hfrom hfront).1
    have hbody := (hvalid body (heq ▸ List.mem_append_right _ List.mem_cons_self)).2.2
    exact ⟨_, congrArg Prod.snd (exec_import hbefore hbody)⟩
  · unfold contentAt at hcontent
    cases hfound : findRouteByCode (importAll target bodies userId now) route.code with
    | some copy =>
      rw [hfound] at hcontent
      exact ⟨copy.id, _, exportRoute_of_mem hafter (List.mem_of_find?_eq_some hfound), hcontent⟩
    | none =>
      -- an exported route has revisions, so it has been imported
      obtain ⟨revision, hrevision, howner⟩ := hfurnished route hroute
      have hrow : revision ∈ revisionsOf source route.id := List.mem_filter.mpr ⟨hrevision, decide_eq_true howner⟩
      rw [hfound] at hcontent
      have hempty := congrArg (fun content => content.revisions.length) hcontent
      rw [content_eq hsource] at hempty
      simp only [Option.elim_none, List.length_nil, List.length_map] at hempty
      rw [List.length_eq_zero_iff.mp hempty.symm] at hrow
      cases hrow

section Tests

def boring : StepInput where
  operationId := "OP-BORE"
  operationName := "Boring"
  controlPointId := some "CP-BORE"
  required := true

def coating : StepInput where
  operationId := "OP-COAT"
  operationName := "Coating"
  controlPointId := some "CP-COAT"

/-- The second revision, in the other order, is the active one. -/
def reordered : List RouteCall :=
  [.createRoute { code := "HOUSING", name := "Housing", steps := [boring, coating] } 100,
    .createRevision 0 { steps := [coating, boring] } 100, .activate 0 2 30]

def reorderedExport : ExportedRoute where
  id := 0
  code := "HOUSING"
  name := "Housing"
  activeRevisionId := some 2
  revisions :=
    [⟨1, 1, .draft, none, exportedSteps [boring, coating]⟩,
      ⟨2, 2, .active, some 30, exportedSteps [coating, boring]⟩]

/-- Tables where the ids are taken. -/
def shafts : List RouteCall := [.createRoute { code := "SHAFT", name := "Shaft", steps := [boring] } 100]

theorem export_reimports_reordered :
    ∃ bodies, reorderedExport.bodies = some bodies ∧
      (∀ front body rest, bodies = front ++ body :: rest → ∃ revisionId,
        (execRoute (importAll (Machine.run execRoute {} shafts) front 100 50)
          (.importRoute body 100 50)).2 = .created revisionId) ∧
      (∃ copyId copy, exportRoute (importAll (Machine.run execRoute {} shafts) bodies 100 50) copyId = .ok copy ∧
        copy.content = reorderedExport.content) ∧
      ∀ id < (Machine.run execRoute {} shafts).nextId,
        exportRoute (importAll (Machine.run execRoute {} shafts) bodies 100 50) id =
          exportRoute (Machine.run execRoute {} shafts) id := by
  have hexport : exportRoute (Machine.run execRoute {} reordered) 0 = .ok reorderedExport := by rfl
  exact export_reimports hexport (by decide) 100 50

end Tests

end TraceQ.Properties
