import TraceQ.Backend.RoutedBackend
import TraceQ.Properties.ActiveRevisions
import TraceQ.Properties.Lifecycle

/-! # Pinned routes

An item keeps the revision it was registered with, the revision keeps its steps, and what the route endpoints
do meanwhile changes nothing in a later rebuild of the item.
-/
namespace TraceQ.Properties
open Projections Ingestion Api Quality Tables Results Backend
set_option autoImplicit false
set_option maxHeartbeats 250000

/-! ## What every state keeps -/

/-- Replay reads the routes that are stored, and every pin names a revision that has been created. -/
structure PinsHeld (s : RoutedBackend) : Prop where
  reachable : Reachable s.db
  synced : s.routes.configure s.db.config = s.db.config
  below : RevisionsBelow s.routes
  pins : ∀ itemId id, pinOf s.db itemId = some (some id) → id < s.routes.nextId

theorem resolveRoute_below {t : RouteTables} (h : RevisionsBelow t) {config : Configuration}
    {payload : ItemRegisteredPayload} {id : Uuid}
    (hid : resolveRoute (t.configure config) payload = some id) : id < t.nextId := by
  unfold resolveRoute at hid
  obtain ⟨definition, hdefinition, hid⟩ := Option.bind_eq_some_iff.mp hid
  obtain ⟨route, hroute, rfl⟩ := List.mem_map.mp (List.mem_of_find?_eq_some hdefinition)
  split at hid
  · obtain ⟨row, hrow, rfl⟩ := Option.map_eq_some_iff.mp hid
    obtain ⟨revision, hrevision, rfl⟩ := List.mem_map.mp (List.mem_of_find?_eq_some hrow)
    exact h.revisions revision hrevision
  · exact h.active route hroute id hid

/-- What one call leaves of the pins and of the steps behind them. -/
structure KeepsRoutes (s s' : RoutedBackend) : Prop where
  steps : KeepsSteps s.routes s'.routes
  pins : ∀ itemId pin, pinOf s.db itemId = some pin → pinOf s'.db itemId = some pin

theorem KeepsRoutes.trans {a b c : RoutedBackend} (hab : KeepsRoutes a b) (hbc : KeepsRoutes b c) :
    KeepsRoutes a c :=
  ⟨hab.steps.trans hbc.steps, fun itemId pin h => hbc.pins itemId pin (hab.pins itemId pin h)⟩

theorem held_of_keepsPins {s : RoutedBackend} (h : PinsHeld s) {call : Call}
    (hkeeps : KeepsPins s.db (exec s.db call).1) :
    PinsHeld ⟨(exec s.db call).1, s.routes⟩ ∧ KeepsRoutes s ⟨(exec s.db call).1, s.routes⟩ := by
  refine ⟨⟨reachable_exec h.reachable call, ?_, h.below, fun itemId id hpin => ?_⟩, KeepsSteps.refl _,
    fun itemId pin hpin => ?_⟩
  · show s.routes.configure (exec s.db call).1.config = (exec s.db call).1.config
    rw [hkeeps.config, h.synced]
  · rcases hkeeps.pins itemId with hsame | ⟨-, payload, hnew⟩
    · exact h.pins itemId id (hsame ▸ hpin)
    · have hresolved : resolveRoute (s.routes.configure s.db.config) payload = some id := by
        rw [h.synced]
        exact Option.some.inj (hnew.symm.trans hpin)
      exact resolveRoute_below h.below hresolved
  · rcases hkeeps.pins itemId with hsame | ⟨hnone, -⟩
    · exact hsame.trans hpin
    · rw [hnone] at hpin
      cases hpin

theorem execRouted_held {s : RoutedBackend} (h : PinsHeld s) (call : RoutedCall) :
    PinsHeld (execRouted s call).1 ∧ KeepsRoutes s (execRouted s call).1 := by
  have hs := reachable_sound h.reachable
  cases call with
  | route call =>
    have heffect := (execRoute_steps s.routes call).keeps
    exact ⟨⟨reachable_exec h.reachable (.configure _), rfl, execRoute_below h.below call,
      fun itemId id hpin => (h.pins itemId id hpin).trans_le heffect.nextId⟩, heffect, fun _ _ hpin => hpin⟩
  | backend call =>
    cases call with
    | configure config =>
      exact ⟨⟨reachable_exec h.reachable (.configure _), rfl, h.below, h.pins⟩, KeepsSteps.refl _,
        fun _ _ hpin => hpin⟩
    | _ => exact held_of_keepsPins h (exec_keepsPins hs nofun)

theorem runRouted_held {s : RoutedBackend} (h : PinsHeld s) (calls : List RoutedCall) :
    PinsHeld (runRouted s calls) ∧ KeepsRoutes s (runRouted s calls) := by
  induction calls generalizing s with
  | nil => exact ⟨h, KeepsSteps.refl _, fun _ _ hpin => hpin⟩
  | cons call rest ih =>
    obtain ⟨hheld, hkeeps⟩ := execRouted_held h call
    exact ⟨(ih hheld).1, hkeeps.trans (ih hheld).2⟩

theorem held_of_reachable {s : RoutedBackend} (h : ReachableRouted s) : PinsHeld s := by
  refine Machine.reachable_invariant (P := PinsHeld) ?_ (fun s call hs => (execRouted_held hs call).1) h
  rintro s ⟨config, order, rfl⟩
  exact ⟨⟨_, [], ⟨({} : RouteTables).configure config, order, rfl⟩, rfl⟩, rfl, ⟨nofun, nofun⟩, nofun⟩

/-! ## Two runs -/

/-- The calls without those of the route endpoints. -/
def withoutRoutes (calls : List RoutedCall) : List RoutedCall :=
  calls.filter fun call => match call with
    | .backend _ => true
    | .route _ => false

theorem backend_sameInputs {s t : RoutedBackend} (hs : PinsHeld s) (ht : PinsHeld t)
    (h : SameInputs s.db t.db) (call : Call) :
    SameInputs (execRouted s (.backend call)).1.db (execRouted t (.backend call)).1.db := by
  have hsound := reachable_sound hs.reachable
  have hsound' := reachable_sound ht.reachable
  cases call with
  | configure config => exact h.configure rfl
  | _ => exact h.exec hsound hsound' _

/-- The calls of the route endpoints leave no trace in what the other calls depend on. -/
theorem runs_sameInputs {s t : RoutedBackend} (hs : PinsHeld s) (ht : PinsHeld t)
    (h : SameInputs s.db t.db) (calls : List RoutedCall) :
    SameInputs (runRouted s calls).db (runRouted t (withoutRoutes calls)).db := by
  induction calls generalizing s t with
  | nil => exact h
  | cons call rest ih =>
    have hheld := (execRouted_held hs call).1
    cases call with
    | backend call => exact ih hheld (execRouted_held ht (.backend call)).1 (backend_sameInputs hs ht h call)
    | route call =>
      have hpolicies : ((execRoute s.routes call).1.configure s.db.config).trustPolicies =
          t.db.config.trustPolicies := h.trustPolicies
      exact ih hheld ht (h.configure hpolicies)

/-! ## Limitations -/

theorem missingCheckLimitations_congr {config config' : Configuration} {item item' : Option Item}
    (hpin : item.map (·.routeRevisionId) = item'.map (·.routeRevisionId))
    (hsteps : ∀ id, item.map (·.routeRevisionId) = some (some id) →
      config.routeSteps.filter (fun step => decide (step.routeRevisionId = id)) =
        config'.routeSteps.filter fun step => decide (step.routeRevisionId = id))
    (operations : List OperationValue) (observations : List ObservationValue) :
    missingCheckLimitations config item operations observations =
      missingCheckLimitations config' item' operations observations := by
  have hbind : ∀ found : Option Item, found.bind (·.routeRevisionId) = (found.map (·.routeRevisionId)).join := by
    intro found
    cases found <;> rfl
  unfold missingCheckLimitations
  rw [hbind item, hbind item', ← hpin]
  cases hpinned : item.map (·.routeRevisionId) with
  | none => rfl
  | some pin =>
    cases pin with
    | none => rfl
    | some id =>
      simp only [Option.join_some]
      rw [hsteps id hpinned]

theorem configure_steps (t : RouteTables) (config : Configuration) (id : Uuid) :
    (t.configure config).routeSteps.filter (fun step => decide (step.routeRevisionId = id)) =
      (stepsOf t id).map (·.toRouteStep) := by
  rw [RouteTables.configure, List.filter_map, stepsOf]
  rfl

/-- States with equal inputs, an equal pin and equal steps behind it have equal limitations. -/
theorem limitations_eq {s t : RoutedBackend} (hs : PinsHeld s) (ht : PinsHeld t)
    (hinputs : SameInputs s.db t.db) {itemId : String} (hpin : pinOf s.db itemId = pinOf t.db itemId)
    (hsteps : ∀ id, pinOf s.db itemId = some (some id) → stepsOf s.routes id = stepsOf t.routes id) :
    (itemContext s.db itemId).limitations = (itemContext t.db itemId).limitations := by
  rw [itemContext, itemContext, ← hinputs.replay itemId]
  refine missingCheckLimitations_congr hpin (fun id hid => ?_) _ _
  rw [← hs.synced, ← ht.synced, configure_steps, configure_steps, hsteps id hid]

theorem runs_limitations {s : RoutedBackend} (hs : PinsHeld s) {itemId : String} {pin : Option Uuid}
    (hpin : pinOf s.db itemId = some pin) (calls : List RoutedCall) :
    (itemContext (runRouted s calls).db itemId).limitations =
      (itemContext (runRouted s (withoutRoutes calls)).db itemId).limitations := by
  obtain ⟨hheld, hkeeps⟩ := runRouted_held hs calls
  obtain ⟨hheld', hkeeps'⟩ := runRouted_held hs (withoutRoutes calls)
  refine limitations_eq hheld hheld' (runs_sameInputs hs hs (SameInputs.refl _) calls) ?_ ?_
  · rw [hkeeps.pins itemId pin hpin, hkeeps'.pins itemId pin hpin]
  · intro id hid
    rw [hkeeps.pins itemId pin hpin] at hid
    have hbelow := hs.pins itemId id (hpin.trans hid)
    rw [hkeeps.steps.steps id hbelow, hkeeps'.steps.steps id hbelow]

/-! ## Every reachable state -/

/-- Whatever the route endpoints do between the other calls: an item keeps its revision, the revision its
steps in their order, and a rebuild of the item succeeds or fails as it would without those calls, with the
same limitations. -/
theorem route_pinning {s : RoutedBackend} (hs : ReachableRouted s) {itemId : String} {item : Item}
    (hitem : findItem s.db itemId = some item) (calls : List RoutedCall) :
    (∃ later, findItem (runRouted s calls).db itemId = some later ∧
      later.routeRevisionId = item.routeRevisionId) ∧
    (∀ revisionId, item.routeRevisionId = some revisionId →
      stepsOf (runRouted s calls).routes revisionId = stepsOf s.routes revisionId) ∧
    ((∃ rebuilt, rebuildItem (runRouted s calls).db itemId = .ok rebuilt) ↔
      ∃ rebuilt, rebuildItem (runRouted s (withoutRoutes calls)).db itemId = .ok rebuilt) ∧
    ∀ rebuilt rebuilt', rebuildItem (runRouted s calls).db itemId = .ok rebuilt →
      rebuildItem (runRouted s (withoutRoutes calls)).db itemId = .ok rebuilt' →
      (itemContext rebuilt itemId).limitations = (itemContext rebuilt' itemId).limitations := by
  have hheld := held_of_reachable hs
  have hpin : pinOf s.db itemId = some item.routeRevisionId := by rw [pinOf, hitem]; rfl
  have hkeeps := (runRouted_held hheld calls).2
  refine ⟨?_, fun revisionId hrevision => ?_, ?_, fun rebuilt rebuilt' hrebuilt hrebuilt' => ?_⟩
  · exact Option.map_eq_some_iff.mp (hkeeps.pins itemId _ hpin)
  · exact hkeeps.steps.steps revisionId (hheld.pins itemId revisionId (hpin.trans (congrArg some hrevision)))
  · exact (runs_sameInputs hheld hheld (SameInputs.refl _) calls).rebuild_iff itemId
  · -- the rebuild is the last call of both runs
    have hlast := runs_limitations hheld hpin (calls ++ [.backend (.rebuild itemId)])
    have hwithout : withoutRoutes (calls ++ [.backend (.rebuild itemId)]) =
        withoutRoutes calls ++ [.backend (.rebuild itemId)] := List.filter_append _ _
    have hrun : ∀ front : List RoutedCall, (runRouted s (front ++ [.backend (.rebuild itemId)])).db =
        (exec (runRouted s front).db (.rebuild itemId)).1 := by
      intro front
      rw [runRouted, Machine.run_append]
      rfl
    rw [hwithout, hrun, hrun, exec_rebuild hrebuilt, exec_rebuild hrebuilt'] at hlast
    exact hlast

/-! ### An item on the default route -/

/-- The default route is imported and an item registered on it. -/
def onDefaultRoute : List RoutedCall :=
  [.route (.importRoute (defaultRoute true) 100 1), .backend (.rebuild "item-1"),
    .backend (.ingest registered 6), .backend (.rebuild "item-1")]

/-- Two more revisions are activated before the scratch is seen. -/
def routeChanges : List RoutedCall :=
  [.route (.importRoute (defaultRoute true) 100 20), .route (.importRoute (defaultRoute false) 100 30),
    .backend (.ingest (scratchSeen "e-2" 10) 31), .route (.activate 0 3 40)]

theorem route_pinning_default_route : ∃ item : Item, item.routeRevisionId = some 1 ∧
    (∃ later, findItem (runRouted (runRouted ⟨{}, {}⟩ onDefaultRoute) routeChanges).db "item-1" = some later ∧
      later.routeRevisionId = item.routeRevisionId) ∧
    (∀ revisionId, item.routeRevisionId = some revisionId →
      stepsOf (runRouted (runRouted ⟨{}, {}⟩ onDefaultRoute) routeChanges).routes revisionId =
        stepsOf (runRouted ⟨{}, {}⟩ onDefaultRoute).routes revisionId) := by
  have hreachable : ReachableRouted (runRouted ⟨{}, {}⟩ onDefaultRoute) :=
    ⟨⟨{}, {}⟩, onDefaultRoute, ⟨{}, _, rfl⟩, rfl⟩
  have hitem : ((findItem (runRouted ⟨{}, {}⟩ onDefaultRoute).db "item-1").map (·.routeRevisionId)) =
      some (some 1) := by decide +kernel
  obtain ⟨item, hfound, hpinned⟩ := Option.map_eq_some_iff.mp hitem
  have hkept := route_pinning hreachable hfound routeChanges
  exact ⟨item, hpinned, hkept.1, hkept.2.1⟩

end TraceQ.Properties
