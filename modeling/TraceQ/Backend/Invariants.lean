import TraceQ.Backend.Effects

/-! # Invariants of every reachable state

The case invariant holds in every state the backend reaches, and an occurrence that is closed stays
closed.
-/
namespace TraceQ.Backend
open Projections Ingestion Api Quality Tables Results
set_option autoImplicit false
set_option maxHeartbeats 250000

/-! ## One effect -/

/-- The row an edit rewrites is the one it found. -/
theorem eq_found {db : Database} (h : WellFormed db) {ncr n : Nonconformance}
    (hmem : ncr ∈ db.nonconformances) (hn : n ∈ db.nonconformances) (hid : n.id = ncr.id) :
    n = ncr := eq_of_nodup_map h.ncr_ids hn hmem hid

theorem edits_wellFormed {db db' : Database} (h : WellFormed db) {ncr ncr' : Nonconformance}
    (hedit : Edits db ncr ncr' db') : WellFormed db' := by
  have hnext : db.nextId ≤ db'.nextId := by
    rcases hedit.decisions with ⟨-, hle⟩ | ⟨_, -, heq, -⟩
    · exact hle
    · exact heq ▸ Nat.le_succ _
  refine wellFormed_of_rows (f := id) h (by rw [hedit.occurrences, List.map_id])
    hedit.nonconformances hedit.versions hnext (fun _ _ => ⟨rfl, rfl, rfl, id⟩) ?_
  intro n hn
  by_cases hid : n.id = ncr.id
  · obtain rfl := eq_found h hedit.found hn hid
    simp only [decide_true, if_true]
    exact ⟨hedit.identity.id, hedit.identity.occurrenceId, hedit.identity.itemId, hedit.identity.key,
      hedit.identity.version⟩
  · simp [hid]

theorem releases_wellFormed {db db' : Database} (h : WellFormed db) {ncr ncr' : Nonconformance}
    {decision : ControllerDecision} {now : Instant}
    (hrelease : Releases db ncr ncr' decision now db') : WellFormed db' := by
  refine wellFormed_of_rows h hrelease.occurrences hrelease.nonconformances hrelease.versions
    (by rw [hrelease.nextId]; exact Nat.le_succ _) ?_ ?_
  · intro o _
    by_cases hid : o.id = ncr.occurrenceId
    · simp [hid, DefectOccurrence.key]
    · simp [hid]
  · intro n hn
    by_cases hid : n.id = ncr.id
    · obtain rfl := eq_found h hrelease.found hn hid
      simp only [decide_true, if_true]
      exact ⟨hrelease.identity.id, hrelease.identity.occurrenceId, hrelease.identity.itemId,
        hrelease.identity.key, hrelease.identity.version⟩
    · simp [hid]

theorem effect_sound {db db' : Database} {call : Call} {response : Response} (hs : Sound db)
    (h : Effect db call response db') : Sound db' := by
  cases h with
  | quiet h =>
    refine ⟨h.toSameCases.wellFormed hs.toWellFormed, fun r hr => ?_⟩
    rw [h.results] at hr
    exact (hs.results_fresh r hr).trans_le h.nextId
  | rebuilds h =>
    obtain ⟨hgrows, hdecided, -⟩ := h.frame hs.toWellFormed
    refine ⟨h.wellFormed hs.toWellFormed, fun r hr => ?_⟩
    rw [hdecided.results] at hr
    exact (hs.results_fresh r hr).trans_le hgrows.nextId
  | edits ncr ncr' h _ _ =>
    refine ⟨edits_wellFormed hs.toWellFormed h, fun r hr => ?_⟩
    rw [h.results] at hr
    have hlt := hs.results_fresh r hr
    rcases h.decisions with ⟨-, hle⟩ | ⟨_, -, heq, -⟩
    · exact hlt.trans_le hle
    · exact hlt.trans (heq ▸ Nat.lt_succ_self _)
  | releases ncr ncr' decision now h _ =>
    refine ⟨releases_wellFormed hs.toWellFormed h, fun r hr => ?_⟩
    rw [h.results] at hr
    rw [h.nextId]
    rcases List.mem_append.mp hr with hold | hnew
    · exact (hs.results_fresh r hold).trans (Nat.lt_succ_self _)
    · rw [List.mem_singleton.mp hnew, h.fresh]
      exact Nat.lt_succ_self _

/-! ## Every reachable state -/

theorem sound_initial {db : Database} (h : Initial db) : Sound db := by
  obtain ⟨config, order, rfl⟩ := h
  exact ⟨wellFormed_initial config order, nofun⟩

theorem exec_sound {db : Database} (hs : Sound db) (call : Call) : Sound (exec db call).1 :=
  effect_sound hs (exec_cases hs call)

theorem reachable_sound {db : Database} (h : Reachable db) : Sound db :=
  Machine.reachable_invariant (P := Sound) (fun _ h₀ => sound_initial h₀)
    (fun _ call hs => exec_sound hs call) h

theorem run_sound {db : Database} (hs : Sound db) (calls : List Call) : Sound (run db calls) :=
  Machine.run_invariant (P := Sound) (fun _ call hm => exec_sound hm call) hs calls

/-! ## Stored events are never lost -/

theorem effect_rawEvents {db db' : Database} {call : Call} {response : Response} (hs : Sound db)
    (h : Effect db call response db') : db.rawEvents <+: db'.rawEvents := by
  cases h with
  | quiet h => exact h.rawEvents
  | rebuilds h => exact (h.frame hs.toWellFormed).2.2 ▸ List.prefix_rfl
  | edits ncr ncr' h _ _ => exact h.rawEvents ▸ List.prefix_rfl
  | releases ncr ncr' decision now h _ => exact h.rawEvents ▸ List.prefix_rfl

/-! ## Closed cases stay closed -/

/-- Every occurrence remains, and a closed one remains closed. -/
def KeepsClosed (db db' : Database) : Prop :=
  ∀ o ∈ db.defectOccurrences, ∃ o' ∈ db'.defectOccurrences, o'.id = o.id ∧ o'.itemId = o.itemId ∧
    (o.status = .closed → o'.status = .closed)

theorem Grows.keepsClosed {db db' : Database} (h : Grows db db') : KeepsClosed db db' := by
  intro o ho
  obtain ⟨o', ho', hfixed⟩ := h.keepsOccurrence ho
  have hstatus : o'.status = o.status := (congrArg DefectOccurrence.status hfixed :)
  exact ⟨o', ho', (congrArg DefectOccurrence.id hfixed :), (congrArg DefectOccurrence.itemId hfixed :),
    fun hclosed => hstatus.trans hclosed⟩

theorem effect_keepsClosed {db db' : Database} {call : Call} {response : Response}
    (hs : Sound db) (h : Effect db call response db') : KeepsClosed db db' := by
  cases h with
  | quiet h => exact fun o ho => ⟨o, h.occurrences ▸ ho, rfl, rfl, id⟩
  | rebuilds h => exact Grows.keepsClosed (h.frame hs.toWellFormed).1
  | edits ncr ncr' h _ _ => exact fun o ho => ⟨o, h.occurrences ▸ ho, rfl, rfl, id⟩
  | releases ncr ncr' decision now h _ =>
    intro o ho
    refine ⟨_, h.occurrences ▸ mem_modifyWhere.mpr ⟨o, ho, rfl⟩, ?_⟩
    by_cases hid : o.id = ncr.occurrenceId
    · simp [hid]
    · simp [hid]

theorem KeepsClosed.trans {a b c : Database} (hab : KeepsClosed a b) (hbc : KeepsClosed b c) :
    KeepsClosed a c := by
  intro o ho
  obtain ⟨o₁, ho₁, hid₁, hi₁, hs₁⟩ := hab o ho
  obtain ⟨o₂, ho₂, hid₂, hi₂, hs₂⟩ := hbc o₁ ho₁
  exact ⟨o₂, ho₂, hid₂.trans hid₁, hi₂.trans hi₁, fun h => hs₂ (hs₁ h)⟩

theorem run_keepsClosed {db : Database} (hs : Sound db) (calls : List Call) :
    KeepsClosed db (run db calls) :=
  Machine.run_related (P := Sound) (r := KeepsClosed) (fun _ o ho => ⟨o, ho, rfl, rfl, id⟩)
    KeepsClosed.trans
    (fun _ call hgood => ⟨exec_sound hgood call, effect_keepsClosed hgood (exec_cases hgood call)⟩) hs calls

end TraceQ.Backend
