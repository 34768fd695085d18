import TraceQ.Library.Transactions
import TraceQ.Properties.SeparationOfDuties

/-! # Approvals side by side

The approvals of a request are one column, which a call reads, extends and writes back whole. An approval is
lost when another one is committed between that read and the commit; where none is, all are recorded.
-/
namespace TraceQ.Properties
open Api Results Transactions
set_option autoImplicit false
set_option maxHeartbeats 250000

/-! ## The transactions -/

/-- The request as it is stored, and the approvals whose calls returned success. -/
structure Approvals where
  stored : ApprovalRequest
  granted : List ApprovalEntry := []

inductive ApproveTransaction where
  | starts (entry : ApprovalEntry)
  /-- The row is loaded and has passed the checks. -/
  | loaded (entry : ApprovalEntry) (row : ApprovalRequest)

/-- The `UPDATE` of the commit: the approvals, and of the other columns those that differ from the loaded row. -/
def writeApproval (row : ApprovalRequest) (entry : ApprovalEntry) (stored : ApprovalRequest) :
    ApprovalRequest :=
  let changed := row.add entry
  { stored with
    approvals := changed.approvals
    status := if changed.status = row.status then stored.status else changed.status
    completedAt := if changed.completedAt = row.completedAt then stored.completedAt else changed.completedAt }

inductive ApproveMoves (w : World Approvals ApproveTransaction) :
    ApproveTransaction → ApproveTransaction → Prop where
  | loads (entry : ApprovalEntry) (h : ensureApprovable w.committed.stored entry.userId = .ok ()) :
      ApproveMoves w (.starts entry) (.loaded entry w.committed.stored)

inductive ApproveCommits (w : World Approvals ApproveTransaction) :
    ApproveTransaction → Approvals → Option ApproveTransaction → Prop where
  | commits (entry : ApprovalEntry) (row : ApprovalRequest) :
      ApproveCommits w (.loaded entry row)
        ⟨writeApproval row entry w.committed.stored, w.committed.granted ++ [entry]⟩ none

/-- Calls of `approve` on one request. One that a check refuses is rolled back. -/
def approveProtocol : Protocol Approvals ApproveTransaction where
  begins l := ∃ entry, l = .starts entry
  moves w _ := ApproveMoves w
  commits w _ := ApproveCommits w
  rollsBack _ := True

/-! ## One call alone -/

/-- On the row it loaded, the commit is the change of the endpoint. -/
theorem writeApproval_self (row : ApprovalRequest) (entry : ApprovalEntry) :
    writeApproval row entry row = row.add entry := by
  unfold writeApproval ApprovalRequest.add
  split
  · by_cases hstatus : ApprovalStatus.approved = row.status <;>
      by_cases hcompleted : some entry.at_ = row.completedAt <;> simp [hstatus, hcompleted]
  · simp

/-- A successful call of the endpoint is a run of the protocol in which it is alone. -/
theorem approve_reaches {t t' : RiskTables} {approvalId userId : Uuid} {body : ApprovalInput} {now : Instant}
    (h : approve t approvalId body userId now = .ok t') : ∃ row ∈ t.approvalRequests, row.id = approvalId ∧
      t'.approvalRequests = Tables.modifyWhere (fun other => decide (other.id = approvalId))
        (fun _ => row.add ⟨userId, body.reason, now⟩) t.approvalRequests ∧
      ∀ granted, approveProtocol.Reachable (World.quiet ⟨row, granted⟩)
        (World.quiet ⟨row.add ⟨userId, body.reason, now⟩, granted ++ [⟨userId, body.reason, now⟩]⟩) := by
  obtain ⟨row, hmem, hid, hpending, hrequester, hduplicate, hrows, -⟩ := approve_ok h
  refine ⟨row, hmem, hid, hrows, fun granted => ?_⟩
  have hchecked : ensureApprovable row userId = .ok () :=
    ensureApprovable_ok.mpr ⟨hpending, hrequester, hduplicate⟩
  have hbegins : approveProtocol.Reachable (World.quiet ⟨row, granted⟩)
      (Protocol.alone ⟨row, granted⟩ (.starts ⟨userId, body.reason, now⟩)) :=
    Protocol.alone_begins _ ⟨_, rfl⟩
  have hloads := Protocol.alone_moves hbegins (ApproveMoves.loads _ hchecked)
  have hcommit := Protocol.alone_commits hloads (ApproveCommits.commits _ row)
  rw [Protocol.alone_committed, writeApproval_self] at hcommit
  exact hcommit

/-! ## Without a commit in between -/

/-- The approvals that are stored are those the call has read. -/
def ReadCurrent (w : World Approvals ApproveTransaction) (_ : ℕ) : ApproveTransaction → Prop
  | .starts _ => True
  | .loaded _ row => row.approvals = w.committed.stored.approvals

/-- A loaded row was pending, and the number of required approvals never changes. -/
structure ApprovalsHeld (required : ℕ) (w : World Approvals ApproveTransaction) : Prop where
  stored : w.committed.stored.requiredApprovals = required
  loaded : ∀ i entry row, w.flight i = some (.loaded entry row) →
    row.status = .pending ∧ row.requiredApprovals = required

theorem approve_step {required : ℕ} {w w' : World Approvals ApproveTransaction}
    (h : ApprovalsHeld required w) (hstep : approveProtocol.Step w w') : ApprovalsHeld required w' := by
  have hset : ∀ (i : ℕ) (l : Option ApproveTransaction), (∀ entry row, l = some (.loaded entry row) →
      row.status = .pending ∧ row.requiredApprovals = required) → ∀ j entry row,
      (w.set i l).flight j = some (.loaded entry row) →
        row.status = .pending ∧ row.requiredApprovals = required := by
    intro i l hl j entry row hj
    by_cases hji : j = i
    · subst hji
      exact hl entry row (by simpa [World.set] using hj)
    · exact h.loaded j entry row (by simpa [World.set, hji] using hj)
  cases hstep with
  | begins i l idle hl =>
    obtain ⟨entry, rfl⟩ := hl
    exact ⟨h.stored, hset i _ fun _ _ heq => by cases heq⟩
  | moves i l l' running hl =>
    cases hl with
    | loads entry hchecked =>
      refine ⟨h.stored, hset i _ fun _ _ heq => ?_⟩
      cases heq
      exact ⟨(ensureApprovable_ok.mp hchecked).1, h.stored⟩
  | commits i l s l' running hl =>
    cases hl with
    | commits entry row => exact ⟨h.stored, hset i none fun _ _ heq => by cases heq⟩
  | rollsBack i l running hl => exact ⟨h.stored, hset i none fun _ _ heq => by cases heq⟩

/-- Every approval that was granted is recorded, and the request is approved as soon as there are enough. -/
structure AllRecorded (start : ApprovalRequest) (s : Approvals) : Prop where
  recorded : s.stored.approvals = start.approvals ++ s.granted
  approved : s.stored.status = .approved ↔ start.requiredApprovals ≤ s.stored.approvals.length

theorem approve_commits {start : ApprovalRequest} {w : World Approvals ApproveTransaction} {i : ℕ}
    {l : ApproveTransaction} {s : Approvals} {l' : Option ApproveTransaction}
    (hw : ApprovalsHeld start.requiredApprovals w) (h : AllRecorded start w.committed)
    (running : w.flight i = some l) (hcommit : ApproveCommits w l s l') (hread : ReadCurrent w i l) :
    AllRecorded start s := by
  cases hcommit with
  | commits entry row =>
    obtain ⟨hpending, hrequired⟩ := hw.loaded i entry row running
    have hread : row.approvals = w.committed.stored.approvals := hread
    have happrovals : (writeApproval row entry w.committed.stored).approvals =
        w.committed.stored.approvals ++ [entry] := by
      simp only [writeApproval, (add_keeps row entry).2.2.2.2, hread]
    refine ⟨by rw [happrovals, h.recorded, List.append_assoc], ?_⟩
    rw [happrovals, List.length_append, List.length_singleton]
    have hstatus := add_status hpending entry
    rw [hrequired, hread] at hstatus
    simp only [writeApproval]
    by_cases hreached : start.requiredApprovals ≤ w.committed.stored.approvals.length + 1
    · have happroved : (row.add entry).status = .approved := hstatus.mpr hreached
      rw [happroved, hpending, if_neg (by decide)]
      exact iff_of_true rfl hreached
    · have hnot : (row.add entry).status = row.status := by
        cases hadd : (row.add entry).status with
        | approved => exact absurd (hstatus.mp hadd) hreached
        | pending => exact hpending.symm
      rw [if_pos hnot, h.approved]
      omega

/-- As long as no approval is committed between the read and the commit of another, every granted approval
is recorded, and the request is approved exactly when enough of them are. -/
theorem approvals_recorded {start : ApprovalRequest} (hpending : start.status = .pending)
    (hopen : start.approvals.length < start.requiredApprovals) {w : World Approvals ApproveTransaction}
    (h : (approveProtocol.restrict ReadCurrent).Reachable (World.quiet ⟨start, []⟩) w) :
    w.committed.stored.approvals = start.approvals ++ w.committed.granted ∧
      (w.committed.stored.status = .approved ↔
        start.requiredApprovals ≤ start.approvals.length + w.committed.granted.length) := by
  have hstart : AllRecorded start ⟨start, []⟩ := by
    refine ⟨by simp, ?_⟩
    rw [hpending]
    exact iff_of_false nofun hopen.not_ge
  have hheld : ApprovalsHeld start.requiredApprovals (World.quiet ⟨start, []⟩) := ⟨rfl, nofun⟩
  have hrecorded := (Protocol.committed_invariant (I := ApprovalsHeld start.requiredApprovals)
    (Q := AllRecorded start) (fun _ _ hw hstep => approve_step hw hstep)
    (fun _ _ _ _ _ hw hq running hcommit hread => approve_commits hw hq running hcommit hread)
    hheld hstart h).2
  refine ⟨hrecorded.recorded, ?_⟩
  rw [hrecorded.approved, hrecorded.recorded, List.length_append]

/-! ### Two controllers -/

/-- A request about many items, which needs two approvals. -/
def massHold : ApprovalRequest where
  id := 3
  actionType := .massContainment
  targetId := 2
  requesterId := 100
  requiredApprovals := 2
  reason := "blade worn"

def firstApproval : ApprovalEntry := ⟨101, "checked", 20⟩

def secondApproval : ApprovalEntry := ⟨102, "checked too", 21⟩

/-- The second controller loads the request after the first one has approved. -/
theorem approvals_recorded_in_turn : ∃ w : World Approvals ApproveTransaction,
    w.committed.granted = [firstApproval, secondApproval] ∧
      w.committed.stored.approvals = massHold.approvals ++ w.committed.granted ∧
      (w.committed.stored.status = .approved ↔
        massHold.requiredApprovals ≤ massHold.approvals.length + w.committed.granted.length) := by
  have hturn : ∀ (s : Approvals) (entry : ApprovalEntry),
      ensureApprovable s.stored entry.userId = .ok () →
      (approveProtocol.restrict ReadCurrent).Reachable (World.quiet s)
        (World.quiet ⟨writeApproval s.stored entry s.stored, s.granted ++ [entry]⟩) := by
    intro s entry hchecked
    have hbegins : (approveProtocol.restrict ReadCurrent).Reachable (World.quiet s)
        (Protocol.alone s (.starts entry)) := Protocol.alone_begins _ ⟨entry, rfl⟩
    have hloads := Protocol.alone_moves hbegins (ApproveMoves.loads entry hchecked)
    exact Protocol.alone_commits hloads ⟨.commits entry s.stored, rfl⟩
  have hfirst := hturn ⟨massHold, []⟩ firstApproval rfl
  have hsecond := hturn ⟨writeApproval massHold firstApproval massHold, [firstApproval]⟩ secondApproval rfl
  exact ⟨_, rfl, approvals_recorded rfl (by decide) (hfirst.trans hsecond)⟩

/-- Both controllers load the request before either approves: both calls succeed, one approval is recorded,
and the request stays pending. -/
theorem approvals_lost : ¬ ∀ (start : ApprovalRequest) (w : World Approvals ApproveTransaction),
    start.status = .pending → start.approvals = [] → start.requiredApprovals = 2 →
    approveProtocol.Reachable (World.quiet ⟨start, []⟩) w →
    w.committed.granted.length = 2 → (w.committed.granted.map (·.userId)).Nodup →
    (∀ entry ∈ w.committed.granted, entry ∈ w.committed.stored.approvals) ∧
      w.committed.stored.status = .approved := by
  intro h
  have hbegins : approveProtocol.Reachable (World.quiet ⟨massHold, []⟩)
      (Protocol.alone ⟨massHold, []⟩ (.starts firstApproval)) := Protocol.alone_begins _ ⟨_, rfl⟩
  have hloads := Protocol.alone_moves hbegins (ApproveMoves.loads firstApproval rfl)
  have hboth : approveProtocol.Reachable (World.quiet ⟨massHold, []⟩)
      (Protocol.both ⟨massHold, []⟩ (.loaded firstApproval massHold) (.starts secondApproval)) :=
    Protocol.both_begins hloads ⟨_, rfl⟩
  have hloaded := Protocol.both_moves hboth (ApproveMoves.loads secondApproval rfl)
  have hsecond := Protocol.both_commits hloaded (ApproveCommits.commits secondApproval massHold)
  have hfirst := Protocol.alone_commits hsecond (ApproveCommits.commits firstApproval massHold)
  have hlost := (h massHold _ rfl rfl rfl hfirst rfl (by decide)).2
  cases hlost

end TraceQ.Properties
