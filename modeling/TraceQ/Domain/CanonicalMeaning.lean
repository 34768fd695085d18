import TraceQ.Domain.Canonical
import TraceQ.Domain.JsonValue

/-! # Reading the canonical form

Every model reads its own dump with sorted keys as the value that was dumped; free-form parts come back with
their keys sorted.
-/
namespace TraceQ
open Security Tables
set_option autoImplicit false
set_option maxHeartbeats 250000

/-- pydantic reads the numbers and timestamps of its own dump as what they were. -/
structure ReadsBack (r : Reading) (w : Writing) : Prop where
  int : ∀ {value n}, r.readInt value = some n → r.readInt (.int n) = some n
  float : ∀ {value x}, r.readFloat value = some x → r.readFloat (.decimal (w.float x)) = some x
  datetime : ∀ {value d}, r.readDatetime value = some d → r.readDatetime (.str (w.datetime d)) = some d
  decimal : ∀ {value x}, r.readFloat value = some x → Json.IsDecimal (w.float x)

/-! ## Sorted objects -/

theorem lookup_of_mem {fields : Params} (h : (fields.map (·.1)).Nodup) {key : String} {value : Json}
    (hmem : (key, value) ∈ fields) : fields.lookup key = some value := by
  cases hlookup : fields.lookup key with
  | none =>
    have hne := List.lookup_eq_none_iff.mp hlookup _ hmem
    simp at hne
  | some other =>
    have hsame := eq_of_nodup_map h hmem (mem_of_lookup hlookup) rfl
    rw [(Prod.mk.inj hsame).2]

theorem lookup_canonicalParams {fields : Params} (h : (fields.map (·.1)).Nodup) (key : String) :
    (canonicalParams fields).lookup key = (fields.lookup key).map Json.canonical := by
  have hsorted := (Json.canonicalParams_keys fields).nodup_iff.mpr h
  cases hlookup : fields.lookup key with
  | some value => exact lookup_of_mem hsorted (Json.mem_canonicalParams.mpr ⟨value, mem_of_lookup hlookup, rfl⟩)
  | none =>
    refine List.lookup_eq_none_iff.mpr fun entry hentry => ?_
    obtain ⟨field, hfield, -⟩ := Json.mem_canonicalParams.mp hentry
    exact List.lookup_eq_none_iff.mp hlookup (entry.1, field) hfield

theorem onlyKeys_canonicalParams {allowed : List String} {fields : Params}
    (h : onlyKeys allowed fields = true) : onlyKeys allowed (canonicalParams fields) = true := by
  refine List.all_eq_true.mpr fun entry hentry => ?_
  obtain ⟨field, hfield, -⟩ := Json.mem_canonicalParams.mp hentry
  exact List.all_eq_true.mp h (entry.1, field) hfield

theorem onlyKeys_self (fields : Params) : onlyKeys (fields.map (·.1)) fields = true :=
  List.all_eq_true.mpr fun _ hfield => List.contains_iff_mem.mpr (List.mem_map_of_mem hfield)

/-! ## Fields -/

section Fields
variable {α : Type} {read : Json → Option α} {dump : α → Json} {sorted : α → α}

/-- A field that was read is read again from its dump with sorted keys, and the dump is well formed. -/
def Restores (read : Json → Option α) (dump : α → Json) (sorted : α → α) : Prop :=
  ∀ value a, read value = some a →
    read (dump a).canonical = some (sorted a) ∧ (value.WellFormed → (dump a).WellFormed)

/-- So are the fields of a model. -/
def RestoresFields (read : Params → Option α) (dump : α → Params) (sorted : α → α) : Prop :=
  ∀ fields a others, read fields = some a →
    (∀ key, others.lookup key = ((dump a).lookup key).map Json.canonical) →
    read others = some (sorted a) ∧ (Json.WellFormedFields fields → Json.WellFormedFields (dump a))

theorem wellFormed_of_lookup {fields : Params} {key : String} {value : Json} (h : Json.WellFormedFields fields)
    (hkey : fields.lookup key = some value) : value.WellFormed :=
  Json.wellFormedFields_iff.mp h _ (mem_of_lookup hkey)

theorem required_restores (hread : Restores read dump sorted) {fields others : Params} {key : String} {a : α}
    (h : required fields key read = some a) (hkey : others.lookup key = some (dump a).canonical) :
    required others key read = some (sorted a) ∧ (Json.WellFormedFields fields → (dump a).WellFormed) := by
  obtain ⟨value, hlookup, hvalue⟩ := Option.bind_eq_some_iff.mp h
  obtain ⟨hagain, hformed⟩ := hread value a hvalue
  rw [required, hkey]
  exact ⟨hagain, fun hfields => hformed (wellFormed_of_lookup hfields hlookup)⟩

theorem optional_restores (hread : Restores read dump sorted) {fields others : Params} {key : String}
    {default a : α} (h : optional fields key default read = some a)
    (hkey : others.lookup key = some (dump a).canonical)
    (hdefault : read (dump default).canonical = some (sorted default) ∧ (dump default).WellFormed) :
    optional others key default read = some (sorted a) ∧
      (Json.WellFormedFields fields → (dump a).WellFormed) := by
  rw [optional, hkey]
  rw [optional] at h
  split at h
  · obtain rfl := Option.some.inj h
    exact ⟨hdefault.1, fun _ => hdefault.2⟩
  · rename_i hlookup
    obtain ⟨hagain, hformed⟩ := hread _ a h
    exact ⟨hagain, fun hfields => hformed (wellFormed_of_lookup hfields hlookup)⟩

theorem nullable_of_ne {value : Json} (h : value ≠ .null) : nullable read value = (read value).map some := by
  cases value with
  | null => exact absurd rfl h
  | _ => rfl

theorem nullable_restores (hread : Restores read dump sorted) (hnull : ∀ a, (dump a).canonical ≠ .null) :
    Restores (nullable read) (dumpOption dump) (Option.map sorted) := by
  intro value found h
  cases found with
  | none => exact ⟨rfl, fun _ => trivial⟩
  | some a =>
    have hvalue : value ≠ .null := by
      rintro rfl
      cases h
    rw [nullable_of_ne hvalue, Option.map_eq_some_iff] at h
    obtain ⟨b, hb, hsame⟩ := h
    rw [Option.some.inj hsame] at hb
    obtain ⟨hagain, hformed⟩ := hread value a hb
    rw [dumpOption, nullable_of_ne (hnull a), hagain]
    exact ⟨rfl, hformed⟩

theorem nullable_restores_id (hread : Restores read dump id) (hnull : ∀ a, (dump a).canonical ≠ .null) :
    Restores (nullable read) (dumpOption dump) id := by
  have h := nullable_restores hread hnull
  rwa [Option.map_id] at h

theorem text_restores (least most : ℕ) : Restores (text least most) .str id := by
  intro value a h
  cases value with
  | str given =>
    have hsame : given = a := by
      rw [text] at h
      split at h
      · exact Option.some.inj h
      · cases h
    subst hsame
    exact ⟨h, fun _ => trivial⟩
  | _ => cases h

theorem anyText_restores : Restores anyText .str id := fun _ _ _ => ⟨rfl, fun _ => trivial⟩

theorem anyMapping_restores : Restores anyMapping .obj canonicalParams := by
  intro value fields h
  cases value with
  | obj given =>
    obtain rfl := Option.some.inj h
    exact ⟨rfl, fun hformed => hformed⟩
  | _ => cases h

theorem nullableText_restores (most : ℕ) : Restores (nullable (text 0 most)) (dumpOption .str) id :=
  nullable_restores_id (text_restores 0 most) fun _ => nofun

theorem parameters_restores :
    Restores (nullable anyMapping) (dumpOption .obj) (Option.map canonicalParams) :=
  nullable_restores anyMapping_restores fun _ => nofun

theorem inspectionScope_restores : Restores inspectionScope InspectionScope.dump InspectionScope.canonical := by
  intro value scope h
  cases value with
  | obj given =>
    obtain rfl := Option.some.inj h
    exact ⟨rfl, fun hformed => hformed⟩
  | arr given =>
    obtain rfl := Option.some.inj h
    exact ⟨rfl, fun hformed => hformed⟩
  | _ => cases h

theorem literal_restores {values : List (String × α)} {name : α → String}
    (h : ∀ a, values.lookup (name a) = some a) : Restores (literal values) (fun a => .str (name a)) id :=
  fun _ a _ => ⟨h a, fun _ => trivial⟩

theorem listOf_restores (hread : Restores read dump id) :
    Restores (listOf read) (fun list => .arr (list.map dump)) id := by
  intro value list h
  cases value with
  | arr values =>
    have hall : ∀ (values : List Json) (list : List α), values.mapM read = some list →
        ((list.map dump).map Json.canonical).mapM read = some list ∧
          (Json.WellFormedList values → Json.WellFormedList (list.map dump)) := by
      intro values
      induction values with
      | nil =>
        intro list h
        obtain rfl := Option.some.inj h
        exact ⟨rfl, fun _ => trivial⟩
      | cons first rest ih =>
        intro list h
        simp only [List.mapM_cons, Option.bind_eq_bind, Option.bind_eq_some_iff, Option.pure_def,
          Option.some.injEq] at h
        obtain ⟨a, ha, others, hothers, rfl⟩ := h
        obtain ⟨hagain, hformed⟩ := hread first a ha
        obtain ⟨hrest, hrestFormed⟩ := ih others hothers
        rw [List.map_cons, List.map_cons, List.mapM_cons, hagain, hrest]
        exact ⟨rfl, fun h => ⟨hformed h.1, hrestFormed h.2⟩⟩
    rw [Json.canonical, Json.canonicalList_eq_map]
    exact hall values list h
  | _ => cases h

theorem references_restores : Restores references dumpTexts id := by
  intro value list h
  simp only [references, Option.bind_eq_bind, Option.bind_eq_some_iff] at h ⊢
  obtain ⟨texts, htexts, hcount⟩ := h
  obtain ⟨passed, hguard, hsame⟩ := hcount
  obtain rfl := Option.some.inj hsame
  obtain ⟨hagain, hformed⟩ := listOf_restores anyText_restores value texts htexts
  exact ⟨⟨texts, hagain, passed, hguard, rfl⟩, hformed⟩

theorem model_restores {keys : List String} {fieldsOf : Params → Option α} {dumpOf : α → Params}
    (hread : RestoresFields fieldsOf dumpOf id) (hkeys : ∀ a, (dumpOf a).map (·.1) = keys)
    (hdistinct : keys.Nodup) :
    Restores (model keys fieldsOf) (fun a => .obj (dumpOf a)) id := by
  intro value a h
  cases value with
  | obj fields =>
    rw [model] at h
    split at h
    · have honly : onlyKeys keys (canonicalParams (dumpOf a)) = true :=
        onlyKeys_canonicalParams (hkeys a ▸ onlyKeys_self (dumpOf a))
      have hnodup : ((dumpOf a).map (·.1)).Nodup := by rwa [hkeys a]
      obtain ⟨hagain, hformed⟩ := hread fields a _ h (lookup_canonicalParams hnodup)
      refine ⟨?_, fun hfields => ⟨hnodup, hformed hfields.2⟩⟩
      show (if onlyKeys keys (canonicalParams (dumpOf a)) then fieldsOf (canonicalParams (dumpOf a)) else none) = _
      rw [if_pos honly]
      exact hagain
    · cases h
  | _ => cases h

end Fields

/-! ## Models of texts -/

theorem defect_restores : RestoresFields defect Defect.dump id := by
  intro fields found others h hothers
  simp only [defect, Option.bind_eq_bind, Option.bind_eq_some_iff, Option.pure_def, Option.some.injEq] at h
  obtain ⟨defectType, htype, description, hdescription, severity, hseverity, component, hcomponent, rfl⟩ := h
  replace htype := required_restores (text_restores 1 128) htype (hothers _)
  replace hdescription := optional_restores (nullableText_restores 2000) hdescription (hothers _) ⟨rfl, trivial⟩
  replace hseverity := optional_restores
    (nullable_restores_id (literal_restores fun severity => by cases severity <;> rfl) fun _ => nofun)
    hseverity (hothers _) ⟨rfl, trivial⟩
  replace hcomponent := optional_restores (nullableText_restores 128) hcomponent (hothers _) ⟨rfl, trivial⟩
  refine ⟨?_, fun hfields => ⟨htype.2 hfields, hdescription.2 hfields, hseverity.2 hfields, hcomponent.2 hfields,
    trivial⟩⟩
  rw [defect, htype.1, hdescription.1, hseverity.1, hcomponent.1]
  rfl

theorem operationStarted_restores : RestoresFields operationStarted OperationStartedPayload.dump
    fun p => { p with parameters := p.parameters.map canonicalParams } := by
  intro fields p others h hothers
  simp only [operationStarted, Option.bind_eq_bind, Option.bind_eq_some_iff, Option.pure_def,
    Option.some.injEq] at h
  obtain ⟨operation, hoperation, operator, hoperator, equipment, hequipment, station, hstation, parameters,
    hparameters, previous, hprevious, reason, hreason, rework, hrework, rfl⟩ := h
  replace hoperation := required_restores (text_restores 1 128) hoperation (hothers _)
  replace hoperator := required_restores (text_restores 1 128) hoperator (hothers _)
  replace hequipment := required_restores (text_restores 1 128) hequipment (hothers _)
  replace hstation := required_restores (text_restores 1 128) hstation (hothers _)
  replace hparameters := optional_restores parameters_restores hparameters (hothers _) ⟨rfl, trivial⟩
  replace hprevious := optional_restores (nullableText_restores 128) hprevious (hothers _) ⟨rfl, trivial⟩
  replace hreason := optional_restores (literal_restores fun reason => by cases reason <;> rfl) hreason
    (hothers _) ⟨rfl, trivial⟩
  replace hrework := optional_restores (nullable_restores_id anyText_restores fun _ => nofun) hrework
    (hothers _) ⟨rfl, trivial⟩
  refine ⟨?_, fun hfields => ⟨hoperation.2 hfields, hoperator.2 hfields, hequipment.2 hfields, hstation.2 hfields,
    hparameters.2 hfields, hprevious.2 hfields, hreason.2 hfields, hrework.2 hfields, trivial⟩⟩
  rw [operationStarted, hoperation.1, hoperator.1, hequipment.1, hstation.1, hparameters.1, hprevious.1, hreason.1,
    hrework.1]
  rfl

theorem machineState_restores : RestoresFields machineState MachineStatePayload.dump
    fun p => { p with parameters := p.parameters.map canonicalParams } := by
  intro fields p others h hothers
  simp only [machineState, Option.bind_eq_bind, Option.bind_eq_some_iff, Option.pure_def, Option.some.injEq] at h
  obtain ⟨equipment, hequipment, state, hstate, code, hcode, parameters, hparameters, rfl⟩ := h
  replace hequipment := required_restores (text_restores 1 128) hequipment (hothers _)
  replace hstate := required_restores (text_restores 1 64) hstate (hothers _)
  replace hcode := optional_restores (nullableText_restores 64) hcode (hothers _) ⟨rfl, trivial⟩
  replace hparameters := optional_restores parameters_restores hparameters (hothers _) ⟨rfl, trivial⟩
  refine ⟨?_, fun hfields => ⟨hequipment.2 hfields, hstate.2 hfields, hcode.2 hfields, hparameters.2 hfields,
    trivial⟩⟩
  rw [machineState, hequipment.1, hstate.1, hcode.1, hparameters.1]
  rfl

theorem operatorAction_restores : RestoresFields operatorAction OperatorActionPayload.dump
    fun p => { p with parameters := p.parameters.map canonicalParams } := by
  intro fields p others h hothers
  simp only [operatorAction, Option.bind_eq_bind, Option.bind_eq_some_iff, Option.pure_def,
    Option.some.injEq] at h
  obtain ⟨operator, hoperator, action, haction, parameters, hparameters, rfl⟩ := h
  replace hoperator := required_restores (text_restores 1 128) hoperator (hothers _)
  replace haction := required_restores (text_restores 1 64) haction (hothers _)
  replace hparameters := optional_restores parameters_restores hparameters (hothers _) ⟨rfl, trivial⟩
  refine ⟨?_, fun hfields => ⟨hoperator.2 hfields, haction.2 hfields, hparameters.2 hfields, trivial⟩⟩
  rw [operatorAction, hoperator.1, haction.1, hparameters.1]
  rfl

/-! ## Numbers and timestamps -/

section Scalars
variable {r : Reading} {w : Writing} (hback : ReadsBack r w)
include hback

theorem atLeast_restores {least : ℤ} (hleast : 0 ≤ least) :
    Restores (fun value => r.readInt value >>= atLeast least) (fun n : ℕ => .int n) id := by
  intro value n h
  obtain ⟨z, hz, hn⟩ := Option.bind_eq_some_iff.mp h
  have hboth : least ≤ z ∧ z.toNat = n := by
    rw [atLeast] at hn
    split at hn
    · exact ⟨by assumption, Option.some.inj hn⟩
    · cases hn
  have hcast : (n : ℤ) = z := by omega
  refine ⟨?_, fun _ => trivial⟩
  show r.readInt (.int n) >>= atLeast least = some n
  rw [hcast, hback.int hz]
  exact hn

theorem readDatetime_restores : Restores r.readDatetime (fun d => .str (w.datetime d)) id :=
  fun _ _ h => ⟨hback.datetime h, fun _ => trivial⟩

theorem readFloat_restores : Restores r.readFloat (fun x => .decimal (w.float x)) id :=
  fun _ _ h => ⟨hback.float h, fun _ => hback.decimal h⟩

theorem confidence_restores : Restores (confidence r) (fun x => .decimal (w.float x)) id := by
  intro value x h
  simp only [confidence, Option.bind_eq_bind, Option.bind_eq_some_iff] at h ⊢
  obtain ⟨found, hfound, passed, hguard, hsame⟩ := h
  obtain rfl := Option.some.inj hsame
  exact ⟨⟨found, hback.float hfound, passed, hguard, rfl⟩, fun _ => hback.decimal hfound⟩

/-! ## Models with numbers -/

theorem sourceRef_restores : RestoresFields (sourceRef r) SourceRef.dump id := by
  intro fields source others h hothers
  simp only [sourceRef, Option.bind_eq_bind, Option.bind_eq_some_iff, Option.pure_def, Option.some.injEq] at h
  obtain ⟨sourceId, hid, sourceType, htype, sequence, hsequence, rfl⟩ := h
  replace hid := required_restores (text_restores 1 128) hid (hothers _)
  replace htype := required_restores (text_restores 1 64) htype (hothers _)
  replace hsequence := optional_restores (nullable_restores_id (atLeast_restores hback le_rfl) fun _ => nofun)
    hsequence (hothers _) ⟨rfl, trivial⟩
  refine ⟨?_, fun hfields => ⟨hid.2 hfields, htype.2 hfields, hsequence.2 hfields, trivial⟩⟩
  rw [sourceRef, hid.1, htype.1, hsequence.1]
  rfl

theorem duration_restores : RestoresFields (duration r) (Duration.dump w) id := by
  intro fields duration others h hothers
  simp only [TraceQ.duration, Option.bind_eq_bind, Option.bind_eq_some_iff, Option.pure_def,
    Option.some.injEq] at h
  obtain ⟨value, hvalue, passed, hguard, unit, hunit, meaning, hmeaning, rfl⟩ := h
  replace hvalue := required_restores (readFloat_restores hback) hvalue (hothers _)
  replace hunit := required_restores (literal_restores fun unit => by cases unit <;> rfl) hunit (hothers _)
  replace hmeaning := required_restores (text_restores 1 64) hmeaning (hothers _)
  refine ⟨?_, fun hfields => ⟨hvalue.2 hfields, hunit.2 hfields, hmeaning.2 hfields, trivial⟩⟩
  rw [TraceQ.duration, hvalue.1, hunit.1, hmeaning.1]
  simp only [Option.bind_eq_bind, Option.bind_some, id, hguard]
  rfl

theorem itemRegistered_restores : RestoresFields (itemRegistered r) ItemRegisteredPayload.dump id := by
  intro fields p others h hothers
  simp only [itemRegistered, Option.bind_eq_bind, Option.bind_eq_some_iff, Option.pure_def,
    Option.some.injEq] at h
  obtain ⟨product, hproduct, revision, hrevision, line, hline, route, hroute, routeRevision, hrouteRevision,
    rfl⟩ := h
  replace hproduct := required_restores (text_restores 1 128) hproduct (hothers _)
  replace hrevision := required_restores (text_restores 1 64) hrevision (hothers _)
  replace hline := optional_restores (nullableText_restores 128) hline (hothers _) ⟨rfl, trivial⟩
  replace hroute := optional_restores (nullableText_restores 128) hroute (hothers _) ⟨rfl, trivial⟩
  replace hrouteRevision := optional_restores
    (nullable_restores_id (atLeast_restores hback zero_le_one) fun _ => nofun) hrouteRevision (hothers _)
    ⟨rfl, trivial⟩
  refine ⟨?_, fun hfields => ⟨hproduct.2 hfields, hrevision.2 hfields, hline.2 hfields, hroute.2 hfields,
    hrouteRevision.2 hfields, trivial⟩⟩
  rw [itemRegistered, hproduct.1, hrevision.1, hline.1, hroute.1, hrouteRevision.1]
  rfl

theorem operationFinished_restores : RestoresFields (operationFinished r) (OperationFinishedPayload.dump w)
    fun p => { p with parameters := p.parameters.map canonicalParams } := by
  intro fields p others h hothers
  simp only [operationFinished, Option.bind_eq_bind, Option.bind_eq_some_iff, Option.pure_def,
    Option.some.injEq] at h
  obtain ⟨status, hstatus, duration, hduration, stop, hstop, parameters, hparameters, rfl⟩ := h
  replace hstatus := required_restores (literal_restores fun status => by cases status <;> rfl) hstatus (hothers _)
  replace hduration := optional_restores
    (nullable_restores_id (model_restores (duration_restores hback) (fun _ => rfl) (by decide)) fun _ => nofun)
    hduration (hothers _) ⟨rfl, trivial⟩
  replace hstop := optional_restores (nullableText_restores 1000) hstop (hothers _) ⟨rfl, trivial⟩
  replace hparameters := optional_restores parameters_restores hparameters (hothers _) ⟨rfl, trivial⟩
  refine ⟨?_, fun hfields => ⟨hstatus.2 hfields, hduration.2 hfields, hstop.2 hfields, hparameters.2 hfields,
    trivial⟩⟩
  rw [operationFinished, hstatus.1, hduration.1, hstop.1, hparameters.1]
  rfl

theorem inspectionResult_restores : RestoresFields (inspectionResult r) (InspectionResultPayload.dump w)
    fun p => { p with inspectionScope := p.inspectionScope.map InspectionScope.canonical } := by
  intro fields p others h hothers
  simp only [inspectionResult, Option.bind_eq_bind, Option.bind_eq_some_iff] at h
  obtain ⟨result, hresult, quality, hquality, controlPoint, hcontrolPoint, confidence, hconfidence, scope, hscope,
    defects, hdefects, evidence, hevidence, component, hcomponent, device, hdevice, session, hsession, hp⟩ := h
  split at hp
  · rename_i hlisted
    obtain rfl := Option.some.inj hp
    replace hresult := required_restores (literal_restores fun result => by cases result <;> rfl) hresult (hothers _)
    replace hquality := required_restores (literal_restores fun quality => by cases quality <;> rfl) hquality
      (hothers _)
    replace hcontrolPoint := required_restores (text_restores 1 128) hcontrolPoint (hothers _)
    replace hconfidence := optional_restores (nullable_restores_id (confidence_restores hback) fun _ => nofun)
      hconfidence (hothers _) ⟨rfl, trivial⟩
    replace hscope := optional_restores
      (nullable_restores inspectionScope_restores fun scope => by cases scope <;> exact nofun) hscope (hothers _)
      ⟨rfl, trivial⟩
    replace hdefects := optional_restores
      (listOf_restores (model_restores defect_restores (fun _ => rfl) (by decide))) hdefects (hothers _)
      ⟨rfl, trivial⟩
    replace hevidence := optional_restores references_restores hevidence (hothers _) ⟨rfl, trivial⟩
    replace hcomponent := optional_restores (nullableText_restores 128) hcomponent (hothers _) ⟨rfl, trivial⟩
    replace hdevice := optional_restores (nullableText_restores 128) hdevice (hothers _) ⟨rfl, trivial⟩
    replace hsession := optional_restores (nullableText_restores 128) hsession (hothers _) ⟨rfl, trivial⟩
    refine ⟨?_, fun hfields => ⟨hresult.2 hfields, hquality.2 hfields, hcontrolPoint.2 hfields,
      hconfidence.2 hfields, hscope.2 hfields, hdefects.2 hfields, hevidence.2 hfields, hcomponent.2 hfields,
      hdevice.2 hfields, hsession.2 hfields, trivial⟩⟩
    rw [inspectionResult, hresult.1, hquality.1, hcontrolPoint.1, hconfidence.1, hscope.1, hdefects.1, hevidence.1,
      hcomponent.1, hdevice.1, hsession.1]
    exact dif_pos hlisted
  · cases hp

/-- The fields of an invalidation, from its dump with the period as it was read. -/
theorem invalidationFields_restores {fields others : Params} {p : InvalidationFields}
    {payload : ControlDeviceInvalidatedPayload} (h : invalidationFields r fields = some p)
    (hpayload : validatePeriod p = .ok payload)
    (hothers : ∀ key, others.lookup key =
      ((payload.dump w (some (p.affectedFrom, p.affectedTo))).lookup key).map Json.canonical) :
    invalidationFields r others = some p ∧ (Json.WellFormedFields fields →
      Json.WellFormedFields (payload.dump w (some (p.affectedFrom, p.affectedTo)))) := by
  rw [validatePeriod] at hpayload
  split at hpayload
  · cases hpayload
  split at hpayload
  · obtain rfl := Except.ok.inj hpayload
    simp only [invalidationFields, Option.bind_eq_bind, Option.bind_eq_some_iff, Option.pure_def,
      Option.some.injEq] at h
    obtain ⟨device, hdevice, start, hstart, finish, hfinish, reason, hreason, type, htype, evidence, hevidence,
      rfl⟩ := h
    replace hdevice := required_restores (text_restores 1 128) hdevice (hothers _)
    replace hstart := required_restores (readDatetime_restores hback) hstart (hothers _)
    replace hfinish := required_restores (readDatetime_restores hback) hfinish (hothers _)
    replace hreason := required_restores (text_restores 3 2000) hreason (hothers _)
    replace htype := optional_restores (nullableText_restores 64) htype (hothers _) ⟨rfl, trivial⟩
    replace hevidence := optional_restores references_restores hevidence (hothers _) ⟨rfl, trivial⟩
    refine ⟨?_, fun hfields => ⟨hdevice.2 hfields, hstart.2 hfields, hfinish.2 hfields, hreason.2 hfields,
      htype.2 hfields, hevidence.2 hfields, trivial⟩⟩
    rw [invalidationFields, hdevice.1, hstart.1, hfinish.1, hreason.1, htype.1, hevidence.1]
    rfl
  · cases hpayload

end Scalars

/-! ## Payloads -/

section Payloads
variable {r : Reading} {w : Writing}

theorem map_checked_ok {α : Type} {f : α → Payload} {read : Option α} {payload : Payload} :
    f <$> checked read = .ok payload ↔ ∃ p, read = some p ∧ f p = payload := by
  cases read with
  | none => exact ⟨nofun, fun ⟨_, h, _⟩ => nomatch h⟩
  | some p =>
    constructor
    · intro h
      exact ⟨p, rfl, Except.ok.inj h⟩
    · rintro ⟨_, hsame, rfl⟩
      rw [← Option.some.inj hsame]
      rfl

theorem invalidation_ok {fields : Params} {payload : Payload}
    (h : (do
      let p ← checked (invalidationFields r fields)
      Payload.controlDeviceInvalidated <$> validatePeriod p) = .ok payload) :
    ∃ p q, invalidationFields r fields = some p ∧ validatePeriod p = .ok q ∧
      payload = .controlDeviceInvalidated q := by
  cases hfields : invalidationFields r fields with
  | none =>
    rw [hfields] at h
    cases h
  | some p =>
    rw [hfields] at h
    cases hperiod : validatePeriod p with
    | error e =>
      simp [checked, bind, Except.bind, hperiod, Functor.map, Except.map] at h
    | ok q =>
      simp only [checked, bind, Except.bind, hperiod, Functor.map, Except.map, Except.ok.injEq] at h
      exact ⟨p, q, rfl, hperiod, h.symm⟩

/-- The payload of an event is read from its sorted dump as itself with sorted free-form parts. -/
theorem read_restores (hback : ReadsBack r w) {name : String} {payloadModel : PayloadModel}
    {fields others : Params} {payload : Payload} (hmodel : payloadModels.lookup name = some payloadModel)
    (h : payloadModel.read r fields = .ok payload)
    (hothers : ∀ key, others.lookup key =
      ((payload.dump w (periodOf r payload fields)).lookup key).map Json.canonical) :
    payloadModel.read r others = .ok payload.canonical ∧
      periodOf r payload.canonical others = periodOf r payload fields ∧
      (Json.WellFormedFields fields → Json.WellFormedFields (payload.dump w (periodOf r payload fields))) := by
  have hmem := mem_of_lookup hmodel
  simp only [payloadModels, List.mem_cons, Prod.mk.injEq, List.not_mem_nil, or_false] at hmem
  rcases hmem with ⟨-, rfl⟩ | ⟨-, rfl⟩ | ⟨-, rfl⟩ | ⟨-, rfl⟩ | ⟨-, rfl⟩ | ⟨-, rfl⟩ | ⟨-, rfl⟩
  · obtain ⟨p, hp, rfl⟩ := map_checked_ok.mp h
    obtain ⟨hagain, hformed⟩ := itemRegistered_restores hback fields p others hp hothers
    exact ⟨map_checked_ok.mpr ⟨_, hagain, rfl⟩, rfl, hformed⟩
  · obtain ⟨p, hp, rfl⟩ := map_checked_ok.mp h
    obtain ⟨hagain, hformed⟩ := operationStarted_restores fields p others hp hothers
    exact ⟨map_checked_ok.mpr ⟨_, hagain, rfl⟩, rfl, hformed⟩
  · obtain ⟨p, hp, rfl⟩ := map_checked_ok.mp h
    obtain ⟨hagain, hformed⟩ := operationFinished_restores hback fields p others hp hothers
    exact ⟨map_checked_ok.mpr ⟨_, hagain, rfl⟩, rfl, hformed⟩
  · obtain ⟨p, hp, rfl⟩ := map_checked_ok.mp h
    obtain ⟨hagain, hformed⟩ := inspectionResult_restores hback fields p others hp hothers
    exact ⟨map_checked_ok.mpr ⟨_, hagain, rfl⟩, rfl, hformed⟩
  · obtain ⟨p, hp, rfl⟩ := map_checked_ok.mp h
    obtain ⟨hagain, hformed⟩ := machineState_restores fields p others hp hothers
    exact ⟨map_checked_ok.mpr ⟨_, hagain, rfl⟩, rfl, hformed⟩
  · obtain ⟨p, hp, rfl⟩ := map_checked_ok.mp h
    obtain ⟨hagain, hformed⟩ := operatorAction_restores fields p others hp hothers
    exact ⟨map_checked_ok.mpr ⟨_, hagain, rfl⟩, rfl, hformed⟩
  · obtain ⟨p, q, hp, hq, rfl⟩ := invalidation_ok h
    rw [periodOf, hp] at hothers ⊢
    obtain ⟨hagain, hformed⟩ := invalidationFields_restores hback hp hq hothers
    refine ⟨?_, ?_, hformed⟩
    · simp only [hagain, checked, bind, Except.bind, hq, Functor.map, Except.map]
      rfl
    · rw [Payload.canonical, periodOf, hagain]

/-- What is dumped are the keys of the model. -/
theorem dump_keys {name : String} {payloadModel : PayloadModel} {fields : Params} {payload : Payload}
    (hmodel : payloadModels.lookup name = some payloadModel) (h : payloadModel.read r fields = .ok payload)
    (period : Option (Datetime × Datetime)) :
    eventTypeOf payload = name ∧ (payload.dump w period).map (·.1) = payloadModel.keys := by
  have hmem := mem_of_lookup hmodel
  simp only [payloadModels, List.mem_cons, Prod.mk.injEq, List.not_mem_nil, or_false] at hmem
  rcases hmem with ⟨rfl, rfl⟩ | ⟨rfl, rfl⟩ | ⟨rfl, rfl⟩ | ⟨rfl, rfl⟩ | ⟨rfl, rfl⟩ | ⟨rfl, rfl⟩ | ⟨rfl, rfl⟩
  case inr.inr.inr.inr.inr.inr =>
    obtain ⟨p, q, -, -, rfl⟩ := invalidation_ok h
    exact ⟨rfl, rfl⟩
  all_goals
    obtain ⟨p, -, rfl⟩ := map_checked_ok.mp h
    exact ⟨rfl, rfl⟩

/-! ## Sorting before dumping -/

theorem dumpOption_sorted {α : Type} {dump : α → Json} {sorted : α → α}
    (h : ∀ a, (dump (sorted a)).canonical = (dump a).canonical) (value : Option α) :
    (dumpOption dump (value.map sorted)).canonical = (dumpOption dump value).canonical := by
  cases value with
  | none => rfl
  | some a => exact h a

theorem parameters_sorted (parameters : Option Params) :
    (dumpOption .obj (parameters.map canonicalParams)).canonical = (dumpOption .obj parameters).canonical :=
  dumpOption_sorted (fun fields => Json.canonical_canonical (.obj fields)) parameters

theorem scope_sorted (scope : Option InspectionScope) :
    (dumpOption InspectionScope.dump (scope.map InspectionScope.canonical)).canonical =
      (dumpOption InspectionScope.dump scope).canonical := by
  refine dumpOption_sorted (fun scope => ?_) scope
  cases scope with
  | listing values => exact Json.canonical_canonical (.arr values)
  | mapping fields => exact Json.canonical_canonical (.obj fields)

/-- The dump of a payload with sorted free-form parts is the dump, once it is sorted. -/
theorem dump_sorted (payload : Payload) (period : Option (Datetime × Datetime)) :
    Json.canonicalFields (payload.canonical.dump w period) = Json.canonicalFields (payload.dump w period) := by
  cases payload with
  | itemRegistered p => rfl
  | operationStarted p =>
    simp only [Payload.canonical, Payload.dump, OperationStartedPayload.dump, Json.canonicalFields,
      parameters_sorted]
  | operationFinished p =>
    simp only [Payload.canonical, Payload.dump, OperationFinishedPayload.dump, Json.canonicalFields,
      parameters_sorted]
  | inspectionResult p =>
    simp only [Payload.canonical, Payload.dump, InspectionResultPayload.dump, Json.canonicalFields, scope_sorted]
  | machineState p =>
    simp only [Payload.canonical, Payload.dump, MachineStatePayload.dump, Json.canonicalFields, parameters_sorted]
  | operatorAction p =>
    simp only [Payload.canonical, Payload.dump, OperatorActionPayload.dump, Json.canonicalFields, parameters_sorted]
  | controlDeviceInvalidated p => rfl

end Payloads

end TraceQ
