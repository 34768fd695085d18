import TraceQ.Backend.Exports
import TraceQ.Properties.ReleaseGate

/-! # The life of a nonconformance

A nonconformance is closed together with its occurrence by its first exported result, and stays
closed. Its disposition is not bound to that: no endpoint asks whether the nonconformance is
closed, so a later decision may take a final disposition back.
-/
namespace TraceQ.Properties
open Projections Ingestion Api Quality Tables Results Backend
set_option autoImplicit false
set_option maxHeartbeats 250000

/-! ## The invariant -/

/-- Closing, the occurrence and the exported results of one nonconformance agree. -/
structure Consistent (db : Database) (ncr : Nonconformance) : Prop where
  occurrence : ∀ o ∈ db.defectOccurrences, o.id = ncr.occurrenceId →
    (o.status = .closed ↔ ncr.closedAt.isSome = true)
  result : ncr.closedAt.isSome = true ↔
    ∃ result ∈ db.qualityResults, result.payload.nonconformanceId = ncr.id
  disposition : exportable ncr.disposition = true → ncr.closedAt.isSome = true

structure Lifecycle (db : Database) : Prop where
  consistent : ∀ ncr ∈ db.nonconformances, Consistent db ncr
  results_fresh : ∀ result ∈ db.qualityResults, result.payload.nonconformanceId < db.nextId

theorem lifecycle_initial (config : Configuration) (order : InsertOrder) :
    Lifecycle { config := config, insertOrder := order } := by
  constructor <;> simp

/-- Rows that agree in what the invariant looks at. -/
theorem Consistent.congr {db db' : Database} {ncr ncr' : Nonconformance} (h : Consistent db ncr)
    (hid : ncr'.id = ncr.id) (hclosed : ncr'.closedAt = ncr.closedAt)
    (hdisposition : exportable ncr'.disposition = true → exportable ncr.disposition = true)
    (hresults : db'.qualityResults = db.qualityResults)
    (hoccurrence : ∀ o' ∈ db'.defectOccurrences, o'.id = ncr'.occurrenceId →
      ∃ o ∈ db.defectOccurrences, o.id = ncr.occurrenceId ∧ o.status = o'.status) :
    Consistent db' ncr' := by
  constructor
  · intro o' ho' hid'
    obtain ⟨o, ho, hoid, hstatus⟩ := hoccurrence o' ho' hid'
    rw [hclosed, ← hstatus]
    exact h.occurrence o ho hoid
  · rw [hclosed, hid, hresults]
    exact h.result
  · rw [hclosed]
    exact fun hexport => h.disposition (hdisposition hexport)

theorem grows_lifecycle {db db' : Database} (hwf : WellFormed db) (h : Lifecycle db)
    (hgrows : Grows db db') (hresults : db'.qualityResults = db.qualityResults) :
    Lifecycle db' := by
  obtain ⟨freshOcc, hoccs, hnewOcc⟩ := hgrows.occurrences
  obtain ⟨freshNcr, hncrs, hnewNcr⟩ := hgrows.nonconformances
  have hocc : ∀ o' ∈ db'.defectOccurrences, (∃ o ∈ db.defectOccurrences,
      fixedOccurrence o = fixedOccurrence o') ∨ (o'.status = .opened ∧ db.nextId ≤ o'.id) := by
    intro o' ho'
    have hmem : fixedOccurrence o' ∈ db.defectOccurrences.map fixedOccurrence ++ freshOcc :=
      hoccs ▸ List.mem_map_of_mem ho'
    rcases List.mem_append.mp hmem with hold | hnew
    · exact .inl (List.mem_map.mp hold)
    · obtain ⟨hstatus, -, hle⟩ := hnewOcc _ hnew
      exact .inr ⟨hstatus, hle⟩
  refine ⟨fun ncr' hncr' => ?_, fun result hr =>
    (h.results_fresh result (hresults ▸ hr)).trans_le hgrows.nextId⟩
  have hmem : fixedNcr ncr' ∈ db.nonconformances.map fixedNcr ++ freshNcr :=
    hncrs ▸ List.mem_map_of_mem hncr'
  rcases List.mem_append.mp hmem with hold | hnew
  · obtain ⟨ncr, hncr, hfixed⟩ := List.mem_map.mp hold
    have hoccId : ncr.occurrenceId = ncr'.occurrenceId :=
      (congrArg Nonconformance.occurrenceId hfixed :)
    have hdisp : ncr.disposition = ncr'.disposition := (congrArg Nonconformance.disposition hfixed :)
    refine (h.consistent ncr hncr).congr (congrArg Nonconformance.id hfixed :).symm
      (congrArg Nonconformance.closedAt hfixed :).symm (fun hexport => hdisp ▸ hexport) hresults ?_
    intro o' ho' hid'
    obtain ⟨old, hold, holdId, -⟩ := hwf.occurrence_of_ncr ncr hncr
    rcases hocc o' ho' with ⟨o, ho, hfixedOcc⟩ | ⟨-, hle⟩
    · have hoid : o.id = o'.id := (congrArg DefectOccurrence.id hfixedOcc :)
      exact ⟨o, ho, hoid.trans (hid'.trans hoccId.symm),
        (congrArg DefectOccurrence.status hfixedOcc :)⟩
    · -- an occurrence of an old nonconformance is old
      have hlt := hwf.occurrence_fresh old hold
      rw [holdId, hoccId, ← hid'] at hlt
      exact absurd hlt hle.not_gt
  · obtain ⟨hidFresh, hoccFresh, hdisp, hclosed, -⟩ := hnewNcr _ hnew
    have hopen : ncr'.closedAt = none := hclosed
    have hdisp' : ncr'.disposition = .inProcess := hdisp
    constructor
    · intro o' ho' hid'
      rcases hocc o' ho' with ⟨o, ho, hfixedOcc⟩ | ⟨hstatus, -⟩
      · have hoid : o.id = o'.id := (congrArg DefectOccurrence.id hfixedOcc :)
        have hlt := hwf.occurrence_fresh o ho
        rw [hoid, hid'] at hlt
        exact absurd hlt hoccFresh.not_gt
      · rw [hstatus, hopen]
        simp
    · rw [hopen]
      refine iff_of_false (by simp) ?_
      rintro ⟨result, hr, hncr⟩
      have hlt := h.results_fresh result (hresults ▸ hr)
      rw [hncr] at hlt
      exact absurd hlt hidFresh.not_gt
    · rw [hdisp']
      nofun

theorem edits_lifecycle {db db' : Database} (hwf : WellFormed db) (h : Lifecycle db)
    {ncr ncr' : Nonconformance} (hedit : Edits db ncr ncr' db')
    (hkept : exportable ncr'.disposition = true → exportable ncr.disposition = true) :
    Lifecycle db' := by
  have hnext : db.nextId ≤ db'.nextId := by
    rcases hedit.decisions with ⟨-, hle⟩ | ⟨_, -, heq, -⟩
    · exact hle
    · exact heq ▸ Nat.le_succ _
  refine ⟨fun n hn => ?_, fun result hr =>
    (h.results_fresh result (hedit.results ▸ hr)).trans_le hnext⟩
  rw [hedit.nonconformances] at hn
  obtain ⟨old, hold, rfl⟩ := mem_modifyWhere.mp hn
  by_cases hid : old.id = ncr.id
  · obtain rfl := eq_found hwf hedit.found hold hid
    simp only [decide_true, if_true]
    refine (h.consistent old hold).congr hedit.identity.id hedit.identity.closedAt hkept
      hedit.results ?_
    exact fun o ho hoid => ⟨o, hedit.occurrences ▸ ho, hoid.trans hedit.identity.occurrenceId, rfl⟩
  · simp only [hid, decide_false, Bool.false_eq_true, if_false]
    exact (h.consistent old hold).congr rfl rfl (fun hexport => hexport) hedit.results
      fun o ho hoid => ⟨o, hedit.occurrences ▸ ho, hoid, rfl⟩

theorem releases_lifecycle {db db' : Database} (hwf : WellFormed db) (h : Lifecycle db)
    {ncr ncr' : Nonconformance} {decision : ControllerDecision} {now : Instant}
    (hrelease : Releases db ncr ncr' decision now db') : Lifecycle db' := by
  have hpayload : (resultPayload ncr' decision now).nonconformanceId = ncr.id := hrelease.identity.id
  have hoccs : ∀ o' ∈ db'.defectOccurrences, ∃ o ∈ db.defectOccurrences, o'.id = o.id ∧
      o'.status = if o.id = ncr.occurrenceId then .closed else o.status := by
    intro o' ho'
    rw [hrelease.occurrences] at ho'
    obtain ⟨o, ho, rfl⟩ := mem_modifyWhere.mp ho'
    refine ⟨o, ho, ?_⟩
    by_cases hid : o.id = ncr.occurrenceId <;> simp [hid]
  refine ⟨fun n hn => ?_, fun result hr => ?_⟩
  · rw [hrelease.nonconformances] at hn
    obtain ⟨old, hold, rfl⟩ := mem_modifyWhere.mp hn
    by_cases hid : old.id = ncr.id
    · simp only [hid, decide_true, if_true]
      constructor
      · intro o' ho' hid'
        obtain ⟨o, ho, hoid, hstatus⟩ := hoccs o' ho'
        have hsame : o.id = ncr.occurrenceId := by
          rw [← hoid, hid']
          exact hrelease.identity.occurrenceId
        rw [hstatus, if_pos hsame]
        simp
      · refine iff_of_true rfl
          ⟨⟨⟨decision.id⟩, decision.id, ncr'.itemId, resultPayload ncr' decision now⟩, ?_, rfl⟩
        rw [hrelease.results]
        exact List.mem_append_right _ (List.mem_singleton_self _)
      · exact fun _ => rfl
    · simp only [hid, decide_false, Bool.false_eq_true, if_false]
      have hother := h.consistent old hold
      constructor
      · intro o' ho' hid'
        obtain ⟨o, ho, hoid, hstatus⟩ := hoccs o' ho'
        have hne : o.id ≠ ncr.occurrenceId := by
          intro hsame
          have hocc : old.occurrenceId = ncr.occurrenceId := by rw [← hid', hoid, hsame]
          exact hid (congrArg Nonconformance.id
            (eq_of_nodup_map hwf.ncr_occurrences hold hrelease.found hocc))
        rw [hstatus, if_neg hne]
        exact hother.occurrence o ho (hoid.symm.trans hid')
      · rw [hother.result, hrelease.results]
        constructor
        · rintro ⟨result, hr, hncr⟩
          exact ⟨result, List.mem_append_left _ hr, hncr⟩
        · rintro ⟨result, hr, hncr⟩
          rcases List.mem_append.mp hr with hkept | hadded
          · exact ⟨result, hkept, hncr⟩
          · rw [List.mem_singleton.mp hadded] at hncr
            exact absurd (hncr.symm.trans hpayload) hid
      · exact hother.disposition
  · rw [hrelease.results] at hr
    rw [hrelease.nextId]
    rcases List.mem_append.mp hr with hkept | hadded
    · exact (h.results_fresh result hkept).trans (Nat.lt_succ_self _)
    · rw [List.mem_singleton.mp hadded]
      exact (hpayload ▸ hwf.ncr_fresh ncr hrelease.found).trans (Nat.lt_succ_self _)

theorem effect_lifecycle {db db' : Database} {call : Call} {response : Response} (hs : Sound db)
    (h : Lifecycle db) (heffect : Effect db call response db') : Lifecycle db' := by
  cases heffect with
  | quiet hquiet =>
    exact grows_lifecycle hs.toWellFormed h hquiet.toSameCases.grows hquiet.results
  | rebuilds hrebuilds =>
    obtain ⟨hgrows, hdecided, -⟩ := hrebuilds.frame hs.toWellFormed
    exact grows_lifecycle hs.toWellFormed h hgrows hdecided.results
  | edits ncr ncr' hedit _ hkept =>
    refine edits_lifecycle hs.toWellFormed h hedit fun hexport => ?_
    rcases hkept with hsame | ⟨hnot, -⟩
    · exact hsame ▸ hexport
    · rw [hnot] at hexport
      cases hexport
  | releases ncr ncr' decision now hrelease _ =>
    exact releases_lifecycle hs.toWellFormed h hrelease

theorem reachable_lifecycle {db : Database} (h : Reachable db) : Lifecycle db := by
  refine (Machine.reachable_invariant (P := fun m => Sound m ∧ Lifecycle m) ?_ ?_ h).2
  · rintro m ⟨config, order, rfl⟩
    exact ⟨sound_initial ⟨config, order, rfl⟩, lifecycle_initial config order⟩
  · rintro m call ⟨hs, hm⟩
    exact ⟨exec_sound hs call, effect_lifecycle hs hm (exec_cases hs call)⟩

/-! ## Dispositions of closed nonconformances -/

def ClosedNcr (db : Database) (ncrId : Uuid) : Prop :=
  ∃ ncr ∈ db.nonconformances, ncr.id = ncrId ∧ ncr.closedAt.isSome = true

/-- If the nonconformance is closed, its disposition is final. -/
def FinalIfClosed (db : Database) (ncrId : Uuid) : Prop :=
  ∀ ncr ∈ db.nonconformances, ncr.id = ncrId → ncr.closedAt.isSome = true →
    exportable ncr.disposition = true

theorem grows_keepsFinal {db db' : Database} (hgrows : Grows db db') {ncrId : Uuid}
    (h : FinalIfClosed db ncrId) : FinalIfClosed db' ncrId := by
  obtain ⟨fresh, hrows, hfresh⟩ := hgrows.nonconformances
  intro n hn hid hclosed
  have hmem : fixedNcr n ∈ db.nonconformances.map fixedNcr ++ fresh :=
    hrows ▸ List.mem_map_of_mem hn
  rcases List.mem_append.mp hmem with hold | hnew
  · obtain ⟨old, holdMem, hfixed⟩ := List.mem_map.mp hold
    have hcloses : old.closedAt = n.closedAt := (congrArg Nonconformance.closedAt hfixed :)
    have hdisp : old.disposition = n.disposition := (congrArg Nonconformance.disposition hfixed :)
    exact hdisp ▸ h old holdMem ((congrArg Nonconformance.id hfixed :).trans hid) (hcloses ▸ hclosed)
  · have hopen : n.closedAt = none := (hfresh _ hnew).2.2.2.1
    rw [hopen] at hclosed
    cases hclosed

/-- Only a call that redecides the closed nonconformance takes a final disposition back. -/
theorem effect_keepsFinal {db db' : Database} {call : Call} {response : Response} (hs : Sound db)
    (heffect : Effect db call response db') {ncrId : Uuid} (h : FinalIfClosed db ncrId)
    (hcall : ¬ (ClosedNcr db ncrId ∧ redecides ncrId call)) : FinalIfClosed db' ncrId := by
  cases heffect with
  | quiet hquiet => exact grows_keepsFinal hquiet.toSameCases.grows h
  | rebuilds hrebuilds => exact grows_keepsFinal (hrebuilds.frame hs.toWellFormed).1 h
  | edits ncr ncr' hedit _ hkept =>
    intro n hn hid hclosed
    rw [hedit.nonconformances] at hn
    obtain ⟨old, hold, rfl⟩ := mem_modifyWhere.mp hn
    by_cases hsame : old.id = ncr.id
    · obtain rfl := eq_found hs.toWellFormed hedit.found hold hsame
      simp only [decide_true, if_true] at hid hclosed ⊢
      rw [hedit.identity.closedAt] at hclosed
      rw [hedit.identity.id] at hid
      rcases hkept with hdisp | ⟨-, hredecides⟩
      · exact hdisp ▸ h old hold hid hclosed
      · exact absurd ⟨⟨old, hold, hid, hclosed⟩, hid ▸ hredecides⟩ hcall
    · simp only [hsame, decide_false, Bool.false_eq_true, if_false] at hid hclosed ⊢
      exact h old hold hid hclosed
  | releases ncr ncr' decision now hrelease _ =>
    intro n hn hid hclosed
    rw [hrelease.nonconformances] at hn
    obtain ⟨old, hold, rfl⟩ := mem_modifyWhere.mp hn
    by_cases hsame : old.id = ncr.id
    · simp only [hsame, decide_true, if_true]
      rw [hrelease.disposition]
      exact (authorize_ok.mp hrelease.authorized).2.2.1
    · simp only [hsame, decide_false, Bool.false_eq_true, if_false] at hid hclosed ⊢
      exact h old hold hid hclosed

/-- Tables in which closing, occurrence, results and dispositions agree. -/
structure Coherent (db : Database) : Prop where
  sound : Sound db
  exported : Exported db
  lifecycle : Lifecycle db
  final : ∀ ncrId, FinalIfClosed db ncrId

theorem coherent_shipped {db : Database} (h : Coherent db) : Coherent (shipped db) where
  sound := sound_shipped h.sound
  exported :=
    { h.exported with
      authorized := fun result hr =>
        ⟨(h.exported.authorized result hr).message, (h.exported.authorized result hr).decision⟩ }
  lifecycle :=
    ⟨fun ncr hncr =>
      ⟨(h.lifecycle.consistent ncr hncr).occurrence, (h.lifecycle.consistent ncr hncr).result,
        (h.lifecycle.consistent ncr hncr).disposition⟩,
      h.lifecycle.results_fresh⟩
  final := h.final

/-- A reachable state in which no nonconformance is closed is coherent. -/
theorem coherent_of_open {db : Database} (h : Reachable db)
    (hopen : ∀ ncr ∈ db.nonconformances, ncr.closedAt.isSome = false) : Coherent db := by
  refine ⟨reachable_sound h, reachable_exported h, reachable_lifecycle h, fun ncrId ncr hncr _ hclosed => ?_⟩
  rw [hopen ncr hncr] at hclosed
  cases hclosed

/-- Tables with the open nonconformance of a scratch. -/
theorem coherent_analysedScratch : Coherent (shipped (run parentsFirst analysedScratch)) :=
  coherent_shipped (coherent_of_open analysedScratch_reachable (by decide +kernel))

/-- The nonconformance of the accepted scratch. -/
def acceptedNcr : Nonconformance :=
  { scratchNcr with
    verdict := .confirmed
    disposition := .useAsIs
    containment := .none
    closedAt := some 20 }

def keepInProcess : DecisionRequest where
  verdict := .confirmed
  disposition := .inProcess
  containment := .none
  reason := "look again"
  allowed := confirmed_allowed

/-- The status RELEASED or USE_AS_IS the call gives the item of the nonconformance, if it does. -/
def itemRelease (ncrId : Uuid) : Call → Response → Option Disposition
  | .decide id body _ _, .decided _ =>
      if id = ncrId ∧ (body.disposition = .released ∨ body.disposition = .useAsIs)
      then some body.disposition else none
  | .verifyRework id _ _ _, .verified answer =>
      if id = ncrId ∧ answer.verificationStatus = .passed then some .released else none
  | _, _ => none

theorem itemRelease_releases {db : Database} (hs : Sound db) {call : Call} {ncrId : Uuid}
    {status : Disposition} (h : itemRelease ncrId call (exec db call).2 = some status) :
    ∃ ncr ncr' decision now, ncr.id = ncrId ∧ decision.disposition = status ∧
      Releases db ncr ncr' decision now (exec db call).1 := by
  unfold itemRelease at h
  split at h
  · rename_i id body userId now answer hresponse
    obtain ⟨⟨rfl, hdisposition⟩, hstatus⟩ := Option.ite_none_right_eq_some.mp h
    obtain rfl := Option.some.inj hstatus
    simp only [exec] at hresponse ⊢
    cases hdecide : decideNonconformance db id body userId now with
    | error e => rw [hdecide] at hresponse; cases hresponse
    | ok result =>
      obtain ⟨committed, response⟩ := result
      have hexport : exportable body.disposition = true := by
        rcases hdisposition with hrelease | huse
        · rw [hrelease]; rfl
        · rw [huse]; rfl
      obtain ⟨ncr, decision, hid, hstatus, hrelease⟩ := decide_releases hs hdecide hexport
      exact ⟨ncr, _, decision, now, hid, hstatus, hrelease⟩
  · rename_i id body userId now answer hresponse
    obtain ⟨⟨rfl, hpassed⟩, hstatus⟩ := Option.ite_none_right_eq_some.mp h
    obtain rfl := Option.some.inj hstatus
    simp only [exec] at hresponse ⊢
    cases hverify : verifyRework db id body userId now with
    | error e => rw [hverify] at hresponse; cases hresponse
    | ok result =>
      obtain ⟨committed, response⟩ := result
      rw [hverify] at hresponse
      obtain rfl : response = answer := Response.verified.inj hresponse
      obtain ⟨ncr, decision, hid, hstatus, hrelease⟩ := verifyRework_releases hs hverify hpassed
      exact ⟨ncr, _, decision, now, hid, hstatus, hrelease⟩
  · cases h

def registered : EventEnvelope where
  eventId := "e-0"
  occurredAt := 1
  source := { sourceId := "mes-1", sourceType := "mes" }
  itemId := some "item-1"
  payload := .itemRegistered { productDefinitionId := "product-1", revision := "A" }

/-- One inspection that reports a scratch and a dent. -/
def scratchAndDent : EventEnvelope where
  eventId := "e-1"
  occurredAt := 10
  source := { sourceId := "camera-1", sourceType := "vision" }
  itemId := some "item-1"
  payload := .inspectionResult
    { inspectionResult := .defectDetected
      observationQuality := .good
      controlPointId := "CP-1"
      defects := [{ defectType := "scratch" }, { defectType := "dent" }] }

def twoDefects : List Call :=
  [.rebuild "item-1", .ingest registered 2, .ingest scratchAndDent 11, .rebuild "item-1"]

/-- The nonconformance of the dent. -/
def dentNcr : Nonconformance := { scratchNcr with id := 4, occurrenceId := 3, defectType := "dent" }

end TraceQ.Properties
