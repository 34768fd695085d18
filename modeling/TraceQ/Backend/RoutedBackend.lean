import TraceQ.Api.RouteMeaning
import TraceQ.Backend.ProjectionInputs

/-! # The backend with its routes

The machine of the backend beside the tables of the route endpoints. An item is given its revision when it is
first registered and keeps it; the revisions it can be given have all their steps.
-/
namespace TraceQ.Backend
open Projections Ingestion Api Quality Tables Results
set_option autoImplicit false
set_option maxHeartbeats 250000

/-! ## The machine -/

structure RoutedBackend where
  db : Database
  routes : RouteTables

inductive RoutedCall where
  | backend (call : Call)
  | route (call : RouteCall)

/-- Policies and structures are configured elsewhere than the routes. -/
def keepRoutes (routes : RouteTables) : Call → Call
  | .configure config => .configure (routes.configure config)
  | call => call

def execRouted (s : RoutedBackend) : RoutedCall → RoutedBackend × (Response ⊕ RouteResponse)
  | .backend call =>
      let result := exec s.db (keepRoutes s.routes call)
      (⟨result.1, s.routes⟩, .inl result.2)
  | .route call =>
      let result := execRoute s.routes call
      (⟨{ s.db with config := result.1.configure s.db.config }, result.1⟩, .inr result.2)

/-- Empty tables, under any policies and structures and any order of the INSERTs. -/
def InitialRouted (s : RoutedBackend) : Prop :=
  ∃ (config : Configuration) (order : InsertOrder),
    s = ⟨{ config := ({} : RouteTables).configure config, insertOrder := order }, {}⟩

def ReachableRouted (s : RoutedBackend) : Prop := Machine.Reachable execRouted InitialRouted s

def runRouted (s : RoutedBackend) (calls : List RoutedCall) : RoutedBackend := Machine.run execRouted s calls

/-- What a call does to the database a call of the backend does. -/
theorem execRouted_db (s : RoutedBackend) (call : RoutedCall) :
    ∃ c, (execRouted s call).1.db = (exec s.db c).1 := by
  cases call with
  | backend call => exact ⟨keepRoutes s.routes call, rfl⟩
  | route call => exact ⟨.configure ((execRoute s.routes call).1.configure s.db.config), rfl⟩

theorem reachable_of_routed {s : RoutedBackend} (h : ReachableRouted s) : Reachable s.db := by
  refine Machine.reachable_invariant (P := fun s => Reachable s.db) ?_ ?_ h
  · rintro s ⟨config, order, rfl⟩
    exact ⟨_, [], ⟨({} : RouteTables).configure config, order, rfl⟩, rfl⟩
  · intro s call hs
    obtain ⟨c, hc⟩ := execRouted_db s call
    exact hc ▸ reachable_exec hs c

/-! ## Revisions that exist -/

/-- Revisions, and those the routes call active, are older than the next one. -/
structure RevisionsBelow (t : RouteTables) : Prop where
  revisions : ∀ revision ∈ t.revisions, revision.id < t.nextId
  active : ∀ route ∈ t.routes, ∀ id, route.activeRevisionId = some id → id < t.nextId

theorem addRoute_below {t : RouteTables} (h : RevisionsBelow t) (code name : String) :
    RevisionsBelow (addRoute t (newRoute t code name)) := by
  refine ⟨fun revision hmem => (h.revisions revision hmem).trans (Nat.lt_succ_self _), ?_⟩
  intro route hmem id hactive
  rcases List.mem_append.mp hmem with hold | hnew
  · exact (h.active route hold id hactive).trans (Nat.lt_succ_self _)
  · rw [List.mem_singleton.mp hnew] at hactive
    cases hactive

theorem withRevision_below {t : RouteTables} (h : RevisionsBelow t) (routeId : Uuid) (steps : List StepInput)
    (userId : Uuid) : RevisionsBelow (withRevision t routeId steps userId) := by
  refine ⟨fun revision hmem => ?_, fun route hmem id hactive => ?_⟩
  · rcases List.mem_append.mp hmem with hold | hnew
    · exact (h.revisions revision hold).trans (Nat.lt_succ_self _)
    · rw [List.mem_singleton.mp hnew]
      exact Nat.lt_succ_self _
  · exact (h.active route hmem id hactive).trans (Nat.lt_succ_self _)

theorem updateRevision_below {t t' : RouteTables} (h : RevisionsBelow t) {old new : Revision}
    (hnew : new.id < t.nextId) (hok : updateRevision t old new = .ok t') : RevisionsBelow t' := by
  unfold updateRevision at hok
  split at hok
  · rwa [← Except.ok.inj hok]
  · split at hok
    · rw [← Except.ok.inj hok]
      refine ⟨fun revision hmem => ?_, h.active⟩
      obtain ⟨row, hrow, rfl⟩ := mem_modifyWhere.mp hmem
      split
      · exact hnew
      · exact h.revisions row hrow
    · cases hok

theorem setActive_below {t : RouteTables} (h : RevisionsBelow t) (routeId : Uuid) {revisionId : Uuid}
    (hrevision : revisionId < t.nextId) : RevisionsBelow (setActive t routeId revisionId) := by
  refine ⟨h.revisions, fun route hmem id hactive => ?_⟩
  obtain ⟨row, hrow, rfl⟩ := mem_modifyWhere.mp hmem
  split at hactive
  · rw [← Option.some.inj hactive]
    exact hrevision
  · exact h.active row hrow id hactive

theorem activateRevision_below {t t' : RouteTables} (h : RevisionsBelow t) {routeId revisionId : Uuid}
    {now : Instant} (hok : activateRevision t routeId revisionId now = .ok t') : RevisionsBelow t' := by
  unfold activateRevision at hok
  obtain ⟨route, -, hok⟩ := bind_ok.mp hok
  obtain ⟨revision, hrevision, hok⟩ := bind_ok.mp hok
  obtain ⟨superseded, hsuperseded, hok⟩ := bind_ok.mp hok
  obtain ⟨changed, hchanged, hok⟩ := bind_ok.mp hok
  have hid : revision.id < t.nextId := h.revisions revision (revisionOr404_ok hrevision).1
  have hfirst : RevisionsBelow superseded ∧ superseded.nextId = t.nextId := by
    unfold supersedeFormer at hsuperseded
    split at hsuperseded
    · rename_i old hformer
      have hold : old ∈ t.revisions := by
        unfold formerRevision at hformer
        split at hformer
        · split at hformer
          · cases hformer
          · exact List.mem_of_find?_eq_some hformer
        · cases hformer
      have hnew : ({ old with status := .superseded } : Revision).id < t.nextId := h.revisions old hold
      exact ⟨updateRevision_below h hnew hsuperseded, (updateRevision_steps hsuperseded).2⟩
    · rw [← Except.ok.inj hsuperseded]
      exact ⟨h, rfl⟩
  obtain ⟨hbelow, hnext⟩ := hfirst
  have hsecond : RevisionsBelow changed := updateRevision_below hbelow (hnext ▸ hid) hchanged
  rw [← pure_ok.mp hok]
  exact setActive_below hsecond route.id ((updateRevision_steps hchanged).2 ▸ hnext ▸ hid)

theorem importRoute_below {t t' : RouteTables} (h : RevisionsBelow t) {body : RouteImport} {userId : Uuid}
    {now : Instant} {revisionId : Uuid} (hok : importRoute t body userId now = .ok (t', revisionId)) :
    RevisionsBelow t' := by
  have hfound : RevisionsBelow (importedRoute t body).1 := by
    unfold importedRoute
    split
    · exact h
    · exact addRoute_below h body.code body.name
  unfold importRoute at hok
  obtain ⟨⟨created, revision⟩, hcreated, hok⟩ := bind_ok.mp hok
  obtain ⟨rfl, rfl⟩ := createRevisionOf_ok hcreated
  have hnew := withRevision_below hfound (importedRoute t body).2.id body.steps userId
  dsimp only at hok
  split at hok
  · obtain ⟨changed, hchanged, hok⟩ := bind_ok.mp hok
    rw [← (pair_ok.mp hok).1]
    have hbelow := updateRevision_below hnew (Nat.lt_succ_self _) hchanged
    exact setActive_below hbelow _ ((updateRevision_steps hchanged).2 ▸ Nat.lt_succ_self _)
  · rw [← (pair_ok.mp hok).1]
    exact hnew

theorem execRoute_below {t : RouteTables} (h : RevisionsBelow t) (call : RouteCall) :
    RevisionsBelow (execRoute t call).1 := by
  cases call with
  | createRoute body userId =>
    simp only [execRoute]
    cases hok : createRoute t body userId with
    | error e => exact h
    | ok result =>
      unfold createRoute at hok
      split at hok
      · cases hok
      · obtain ⟨⟨created, revision⟩, hcreated, hok⟩ := bind_ok.mp hok
        obtain ⟨rfl, rfl⟩ := createRevisionOf_ok hcreated
        rw [← pure_ok.mp hok]
        exact withRevision_below (addRoute_below h body.code body.name) _ _ _
  | createRevision routeId body userId =>
    simp only [execRoute]
    cases hok : createRevision t routeId body userId with
    | error e => exact h
    | ok result =>
      unfold createRevision at hok
      obtain ⟨route, -, hok⟩ := bind_ok.mp hok
      obtain ⟨⟨created, revision⟩, hcreated, hok⟩ := bind_ok.mp hok
      obtain ⟨rfl, rfl⟩ := createRevisionOf_ok hcreated
      rw [← pure_ok.mp hok]
      exact withRevision_below h _ _ _
  | activate routeId revisionId now =>
    simp only [execRoute]
    cases hok : activateRevision t routeId revisionId now with
    | error e => exact h
    | ok committed => exact activateRevision_below h hok
  | importRoute body userId now =>
    simp only [execRoute]
    cases hok : importRoute t body userId now with
    | error e => exact h
    | ok result => exact importRoute_below h hok

/-! ## Pins -/

/-- The revision an item is pinned to, if the item exists. -/
def pinOf (db : Database) (itemId : String) : Option (Option Uuid) :=
  (findItem db itemId).map (·.routeRevisionId)

/-- The pins stay, and an item that is new takes its pin from the routes. -/
structure KeepsPins (db db' : Database) : Prop where
  config : db'.config = db.config
  pins : ∀ itemId, pinOf db' itemId = pinOf db itemId ∨
    (pinOf db itemId = none ∧ ∃ payload, pinOf db' itemId = some (resolveRoute db.config payload))

theorem keepsPins_of_items {db db' : Database} (config : db'.config = db.config)
    (items : db'.items = db.items) : KeepsPins db db' :=
  ⟨config, fun itemId => .inl (by rw [pinOf, pinOf, findItem, findItem, items])⟩

theorem KeepsPins.trans {a b c : Database} (hab : KeepsPins a b) (hbc : KeepsPins b c) : KeepsPins a c := by
  refine ⟨hbc.config.trans hab.config, fun itemId => ?_⟩
  rcases hbc.pins itemId with hsame | ⟨hnone, payload, hnew⟩
  · rw [hsame]
    exact hab.pins itemId
  · rcases hab.pins itemId with hsame | ⟨-, payload', hpinned⟩
    · exact .inr ⟨hsame ▸ hnone, payload, hab.config ▸ hnew⟩
    · rw [hnone] at hpinned
      cases hpinned

theorem SameEvidence.keepsPins {db db' : Database} (h : SameEvidence db db') : KeepsPins db db' := by
  refine ⟨h.config, fun itemId => .inl ?_⟩
  have hpin : ∀ m : Database, pinOf m itemId =
      ((m.items.map undecided).find? fun item => decide (item.itemId = itemId)).map (·.routeRevisionId) := by
    intro m
    rw [List.find?_map, Option.map_map]
    rfl
  rw [hpin, hpin, h.items]

theorem projectItem_keepsPins (db : Database) (target : String) (value : Option ItemValue) :
    KeepsPins db (projectItem db target value) := by
  unfold projectItem
  cases value with
  | none => exact keepsPins_of_items rfl rfl
  | some value =>
    cases hfound : findItem db target with
    | none =>
      refine ⟨rfl, fun itemId => ?_⟩
      by_cases hitem : itemId = target
      · subst hitem
        refine .inr ⟨by rw [pinOf, hfound]; rfl, value.payload, ?_⟩
        have hfind : findItem { db with items := db.items ++ [newItem db.config itemId value] } itemId =
            some (newItem db.config itemId value) := by
          rw [findItem] at hfound ⊢
          rw [List.find?_append, hfound]
          simp [newItem]
        rw [pinOf, hfind]
        rfl
      · left
        have hother : (newItem db.config target value).itemId ≠ itemId := fun heq => hitem heq.symm
        simp [pinOf, findItem, List.find?_append, hother]
    | some item =>
      refine ⟨rfl, fun itemId => .inl ?_⟩
      have hfind := find?_modifyWhere (p := fun item => decide (item.itemId = target))
        (f := registerItem value) (q := fun item => decide (item.itemId = itemId)) (fun _ => rfl) db.items
      simp only [pinOf, findItem, hfind, Option.map_map]
      refine Option.map_congr fun row _ => ?_
      by_cases hrow : row.itemId = target <;> simp [hrow, registerItem]

theorem rebuildItem_keepsPins {db db' : Database} (hwf : WellFormed db) {itemId : String}
    (h : rebuildItem db itemId = .ok db') : KeepsPins db db' := by
  have hconfig := config_of_outside (rebuildItem_outside hwf h)
  by_cases hraws : history db itemId = []
  · rcases rebuildItem_cases h with ⟨-, rfl⟩ | ⟨hne, -⟩
    · exact keepsPins_of_items rfl rfl
    · exact absurd hraws hne
  · obtain ⟨stored, hstored, -, hitems⟩ := rebuildItem_stores hwf h hraws
    obtain ⟨runs, -, hdb⟩ := storeProjection_ok hstored
    have hbefore : KeepsPins db stored := keepsPins_of_items (by rw [hdb]) (by rw [hdb])
    have hprojected := projectItem_keepsPins stored itemId (replay db itemId).item
    have hkept := hbefore.trans hprojected
    refine ⟨hconfig, fun other => ?_⟩
    have hpin : pinOf db' other = pinOf (projectItem stored itemId (replay db itemId).item) other := by
      rw [pinOf, pinOf, findItem, findItem, hitems]
    rw [hpin]
    exact hkept.pins other

theorem rebuildAll_keepsPins {committed session : Database} (hwf : WellFormed session) {db : Database}
    (hcommitted : KeepsPins db committed) (hsession : KeepsPins db session) (targets : List String) :
    KeepsPins db (rebuildAll committed session targets).1 := by
  induction targets generalizing committed session with
  | nil => exact hsession
  | cons itemId rest ih =>
    rw [rebuildAll]
    cases hrebuild : rebuildItem session itemId with
    | ok rebuilt =>
      have hnext := hsession.trans (rebuildItem_keepsPins hwf hrebuild)
      exact ih (rebuildItem_wellFormed hwf hrebuild) hnext hnext
    | error e => exact hcommitted

/-- A call that configures nothing keeps the pins. -/
theorem exec_keepsPins {db : Database} (hs : Sound db) {call : Call} (h : ∀ config, call ≠ .configure config) :
    KeepsPins db (exec db call).1 := by
  cases exec_frame hs call with
  | ingested event receivedAt result _ hingest =>
    rcases ingestEvent_cases hingest with ⟨_, -, -, heq, -⟩ | ⟨-, -, hout, -, -⟩
    · rw [heq]
      exact keepsPins_of_items rfl rfl
    · exact keepsPins_of_items (congrArg Database.config hout :) (congrArg Database.items hout :)
  | rebuilt itemId _ hrebuild => exact rebuildItem_keepsPins hs.toWellFormed hrebuild
  | failed itemId error _ _ hmarked =>
    rw [hmarked]
    exact keepsPins_of_items rfl rfl
  | invalidated body userId _ heq =>
    rw [heq]
    unfold invalidateDevice
    refine rebuildAll_keepsPins ?_ ?_ ?_ _
    · exact wellFormed_congr hs.toWellFormed rfl rfl rfl le_rfl
    · exact keepsPins_of_items rfl rfl
    · exact keepsPins_of_items rfl rfl
  | configured config isConfigure => exact absurd isConfigure (h config)
  | other hsame => exact hsame.keepsPins

end TraceQ.Backend
