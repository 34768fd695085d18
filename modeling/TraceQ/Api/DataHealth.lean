import TraceQ.Api.Analytics
import TraceQ.Ingestion.Authentication
import TraceQ.Worker.Outbox

/-! # The health figures

`data_health` in `backend/app/api/analytics.py`. The heartbeats it passes on are left out.
-/
namespace TraceQ.Api
open Ingestion Worker
set_option autoImplicit false
set_option maxHeartbeats 250000

structure DataHealth where
  calculatedAt : Instant
  ingestion : List (AttemptStatus × ℕ)
  errors : List (String × ℕ)
  projections : List (ProjectionStatus × ℕ)
  outbox : List (OutboxState × ℕ)
  integrations : List IntegrationHealth

def dataHealth (s : Store) (tables : WorkerTables) (now : Instant) : DataHealth where
  calculatedAt := now
  ingestion := groupCounts (s.attempts.map (·.status))
  errors := groupCounts (s.attempts.filterMap (·.errorCode))
  projections := groupCounts (s.db.projectionStates.map (·.status))
  outbox := groupCounts (tables.outbox.map (·.state))
  integrations := tables.health

/-! ## Groups -/

section Groups
variable {κ : Type} [DecidableEq κ]

/-- A group has as many members as the key occurs; what does not occur has no group. -/
theorem lookup_groupCounts (keys : List κ) (key : κ) : ((groupCounts keys).lookup key).getD 0 = keys.count key := by
  have hlookup : ∀ groups : List κ, (groups.map fun key => (key, keys.count key)).lookup key =
      if key ∈ groups then some (keys.count key) else none := by
    intro groups
    induction groups with
    | nil => rfl
    | cons first rest ih =>
      by_cases hkey : key = first
      · simp [hkey]
      · rw [List.map_cons, List.lookup_cons, ih, beq_false_of_ne hkey]
        simp [hkey]
  rw [groupCounts, hlookup]
  by_cases hmem : key ∈ keys
  · simp [hmem]
  · simp [hmem, List.count_eq_zero_of_not_mem hmem]

theorem sum_groupCounts (keys : List κ) : ((groupCounts keys).map (·.2)).sum = keys.length := by
  rw [groupCounts, List.map_map]
  exact List.sum_map_count_dedup_eq_length keys

end Groups

end TraceQ.Api
