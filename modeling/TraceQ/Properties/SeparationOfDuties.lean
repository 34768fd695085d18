import TraceQ.Api.EndpointMeaning
import TraceQ.Api.Risk

/-! # Separation of duties

A proposal of a blast radius query is approved only through its approval request, by as many users as
the request asks for, none of them the requester. The NCR endpoint cannot review it, since it belongs
to no NCR.
-/
namespace TraceQ.Properties
open Projections Quality Tables Api Results
set_option autoImplicit false
set_option maxHeartbeats 250000

/-- The number of items that a query listed. -/
def listed (t : RiskTables) (queryId : Uuid) : ℕ :=
  (t.exposures.filter fun row => decide (row.queryId = queryId)).length

/-- The request decides on the proposal, by distinct users other than the requester. -/
structure Governs (threshold : ℕ) (t : RiskTables) (request : ApprovalRequest)
    (proposal : ContainmentProposal) : Prop where
  target : request.targetId = proposal.id
  requester : request.requesterId = proposal.proposedBy
  required : ∃ queryId, t.blastRadiusQueryId proposal.id = some queryId ∧
    request.requiredApprovals = approvalsRequired threshold (listed t queryId)
  distinct : (request.approvals.map (·.userId)).Nodup
  others : ∀ entry ∈ request.approvals, entry.userId ≠ request.requesterId
  complete : request.status = .approved → request.requiredApprovals ≤ request.approvals.length
  unreviewed : proposal.status ≠ .rejected
  status : proposal.status = .approved ↔ request.status = .approved

/-- The rows of the approvals. -/
structure Separated (threshold : ℕ) (t : RiskTables) : Prop where
  proposalIds : (t.db.containmentProposals.map (·.id)).Nodup
  approvalIds : (t.approvalRequests.map (·.id)).Nodup
  targets : (t.approvalRequests.map (·.targetId)).Nodup
  proposals_fresh : ∀ proposal ∈ t.db.containmentProposals, proposal.id < t.db.nextId
  approvals_fresh : ∀ request ∈ t.approvalRequests, request.id < t.db.nextId
  targets_fresh : ∀ request ∈ t.approvalRequests, request.targetId < t.db.nextId
  exposures_fresh : ∀ row ∈ t.exposures, row.queryId < t.db.nextId
  queries_fresh : ∀ id queryId, t.blastRadiusQueryId id = some queryId → queryId < t.db.nextId
  governed : ∀ proposal ∈ t.db.containmentProposals, proposal.nonconformanceId = none →
    ∃ request ∈ t.approvalRequests, Governs threshold t request proposal
  /-- A request is about a proposal of a blast radius query. -/
  about : ∀ request ∈ t.approvalRequests, ∃ proposal ∈ t.db.containmentProposals,
    proposal.id = request.targetId ∧ proposal.nonconformanceId = none

/-! ## Reviews and proposals -/

section Calls
variable {threshold : ℕ} {t : RiskTables}

/-- The NCR endpoints change no proposal of a blast radius query. -/
structure KeepsBlast (db db' : Database) : Prop where
  ids : (db.containmentProposals.map (·.id)).Nodup →
    (∀ proposal ∈ db.containmentProposals, proposal.id < db.nextId) →
      (db'.containmentProposals.map (·.id)).Nodup ∧
        ∀ proposal ∈ db'.containmentProposals, proposal.id < db'.nextId
  nextId : db.nextId ≤ db'.nextId
  rows : (db.containmentProposals.map (·.id)).Nodup → ∀ proposal, proposal.nonconformanceId = none →
    (proposal ∈ db'.containmentProposals ↔ proposal ∈ db.containmentProposals)

theorem keepsBlast_propose {db db' : Database} {ncrId userId proposalId : Uuid}
    {body : ContainmentProposalRequest}
    (h : proposeContainment db ncrId body userId = .ok (db', proposalId)) : KeepsBlast db db' := by
  unfold proposeContainment at h
  obtain ⟨ncr, -, h⟩ := bind_ok.mp h
  obtain ⟨rfl, -⟩ := pair_ok.mp h
  refine ⟨fun hids hfresh => ⟨?_, ?_⟩, Nat.le_succ _, fun _ proposal hnone => ?_⟩
  · exact nodup_map_append hids fun old hold => (hfresh old hold).ne
  · intro proposal hmem
    rcases List.mem_append.mp hmem with hold | hnew
    · exact (hfresh proposal hold).trans (Nat.lt_succ_self _)
    · rw [List.mem_singleton.mp hnew]
      exact Nat.lt_succ_self _
  · rw [List.mem_append, List.mem_singleton]
    constructor
    · rintro (hold | rfl)
      · exact hold
      · cases hnone
    · exact .inl

theorem keepsBlast_review {db db' : Database} {proposalId userId : Uuid}
    {body : ContainmentReviewRequest} {now : Instant}
    (h : reviewContainment db proposalId body userId now = .ok db') : KeepsBlast db db' := by
  unfold reviewContainment at h
  obtain ⟨found, hfound, h⟩ := bind_ok.mp h
  obtain ⟨_, -, h⟩ := bind_ok.mp h
  obtain ⟨ncr, hncr, h⟩ := bind_ok.mp h
  have hreviewed : found ∈ db.containmentProposals ∧ found.id = proposalId := by
    unfold proposalOr404 at hfound
    split at hfound
    · rename_i row hrow
      cases hfound
      exact ⟨List.mem_of_find?_eq_some hrow, by simpa using List.find?_some hrow⟩
    · cases hfound
  have hncrId : found.nonconformanceId ≠ none := by
    intro hnone
    unfold proposalNcr at hncr
    rw [hnone] at hncr
    cases hncr
  have hdb := pure_ok.mp h
  -- both branches write the same proposals
  have hproposals : ∃ f : ContainmentProposal → ContainmentProposal,
      (∀ row, (f row).id = row.id ∧ (f row).nonconformanceId = row.nonconformanceId) ∧
      db'.containmentProposals = modifyWhere (fun row => decide (row.id = proposalId)) f
        db.containmentProposals ∧ db'.nextId = db.nextId := by
    split at hdb
    · rw [← hdb]
      refine ⟨_, ?_, rfl, rfl⟩
      exact fun row => ⟨rfl, rfl⟩
    · rw [← hdb]
      refine ⟨_, ?_, rfl, rfl⟩
      exact fun row => ⟨rfl, rfl⟩
  obtain ⟨f, hf, hrows, hnextId⟩ := hproposals
  have hidsEq : db'.containmentProposals.map (·.id) = db.containmentProposals.map (·.id) := by
    rw [hrows]
    exact map_modifyWhere (f := f) (fun row => (hf row).1) _
  refine ⟨fun hids hfresh => ⟨hidsEq ▸ hids, fun proposal hmem => ?_⟩, hnextId.ge,
    fun hids proposal hnone => ?_⟩
  · have hin : proposal.id ∈ db.containmentProposals.map (·.id) := by
      rw [← hidsEq]
      exact List.mem_map_of_mem hmem
    obtain ⟨old, hold, hid⟩ := List.mem_map.mp hin
    rw [hnextId, ← hid]
    exact hfresh old hold
  · rw [hrows, mem_modifyWhere]
    constructor
    · rintro ⟨old, hold, rfl⟩
      by_cases hid : old.id = proposalId
      · obtain rfl : old = found := eq_of_nodup_map hids hold hreviewed.1 (hid.trans hreviewed.2.symm)
        simp only [hid, decide_true, if_true] at hnone
        exact absurd ((hf old).2.symm.trans hnone) hncrId
      · simpa [hid] using hold
    · intro hmem
      refine ⟨proposal, hmem, ?_⟩
      have hid : proposal.id ≠ proposalId := by
        intro hid
        rw [eq_of_nodup_map hids hmem hreviewed.1 (hid.trans hreviewed.2.symm)] at hnone
        exact hncrId hnone
      simp [hid]

theorem Separated.keeps (h : Separated threshold t) {db' : Database} (hkeeps : KeepsBlast t.db db') :
    Separated threshold { t with db := db' } := by
  obtain ⟨hids, hfresh⟩ := hkeeps.ids h.proposalIds h.proposals_fresh
  constructor
  · exact hids
  · exact h.approvalIds
  · exact h.targets
  · exact hfresh
  · exact fun request hmem => (h.approvals_fresh request hmem).trans_le hkeeps.nextId
  · exact fun request hmem => (h.targets_fresh request hmem).trans_le hkeeps.nextId
  · exact fun row hmem => (h.exposures_fresh row hmem).trans_le hkeeps.nextId
  · exact fun id queryId hquery => (h.queries_fresh id queryId hquery).trans_le hkeeps.nextId
  · intro proposal hmem hnone
    obtain ⟨request, hrequest, hgoverns⟩ :=
      h.governed proposal ((hkeeps.rows h.proposalIds proposal hnone).mp hmem) hnone
    exact ⟨request, hrequest, ⟨hgoverns.target, hgoverns.requester, hgoverns.required,
      hgoverns.distinct, hgoverns.others, hgoverns.complete, hgoverns.unreviewed, hgoverns.status⟩⟩
  · intro request hmem
    obtain ⟨proposal, hproposal, hid, hnone⟩ := h.about request hmem
    exact ⟨proposal, (hkeeps.rows h.proposalIds proposal hnone).mpr hproposal, hid, hnone⟩

/-! ## A blast radius query -/

/-- The rows of a query are those it listed. -/
theorem listed_blastRadius_self (h : Separated threshold t) (body : BlastRadiusRequest) (userId : Uuid) :
    listed (blastRadius threshold t body userId) t.db.nextId =
      (affectedRows t.db body t.db.nextId).length := by
  have hold : t.exposures.filter (fun row => decide (row.queryId = t.db.nextId)) = [] := by
    rw [List.filter_eq_nil_iff]
    intro row hmem
    simpa using (h.exposures_fresh row hmem).ne
  have hnew : (affectedRows t.db body t.db.nextId).filter
      (fun row => decide (row.queryId = t.db.nextId)) = affectedRows t.db body t.db.nextId := by
    rw [List.filter_eq_self]
    intro row hmem
    obtain ⟨candidate, -, rfl⟩ := List.mem_map.mp hmem
    simp [exposureOf]
  rw [listed, blastRadius, List.filter_append, hold, hnew, List.nil_append]

theorem listed_blastRadius_other {queryId : Uuid} (hquery : queryId < t.db.nextId)
    (body : BlastRadiusRequest) (userId : Uuid) :
    listed (blastRadius threshold t body userId) queryId = listed t queryId := by
  have hnew : (affectedRows t.db body t.db.nextId).filter
      (fun row => decide (row.queryId = queryId)) = [] := by
    rw [List.filter_eq_nil_iff]
    intro row hmem
    obtain ⟨candidate, -, rfl⟩ := List.mem_map.mp hmem
    simp [exposureOf, hquery.ne']
  rw [listed, blastRadius, List.filter_append, hnew, List.append_nil, listed]

theorem Separated.queries (h : Separated threshold t) (body : BlastRadiusRequest) (userId : Uuid) :
    Separated threshold (blastRadius threshold t body userId) := by
  have hone : t.db.nextId < t.db.nextId + 1 := Nat.lt_succ_self _
  have htwo : t.db.nextId < t.db.nextId + 2 := Nat.lt_add_of_pos_right (by decide)
  have hthree : t.db.nextId < t.db.nextId + 3 := Nat.lt_add_of_pos_right (by decide)
  have hproposal : t.db.nextId + 1 < t.db.nextId + 3 := Nat.add_lt_add_left (by decide) _
  have happroval : t.db.nextId + 2 < t.db.nextId + 3 := Nat.add_lt_add_left (by decide) _
  constructor
  · exact nodup_map_append h.proposalIds fun old hold => ((h.proposals_fresh old hold).trans hone).ne
  · exact nodup_map_append h.approvalIds fun old hold => ((h.approvals_fresh old hold).trans htwo).ne
  · exact nodup_map_append h.targets fun old hold => ((h.targets_fresh old hold).trans hone).ne
  · intro proposal hmem
    rcases List.mem_append.mp hmem with hold | hnew
    · exact (h.proposals_fresh proposal hold).trans hthree
    · rw [List.mem_singleton.mp hnew]
      exact hproposal
  · intro request hmem
    rcases List.mem_append.mp hmem with hold | hnew
    · exact (h.approvals_fresh request hold).trans hthree
    · rw [List.mem_singleton.mp hnew]
      exact happroval
  · intro request hmem
    rcases List.mem_append.mp hmem with hold | hnew
    · exact (h.targets_fresh request hold).trans hthree
    · rw [List.mem_singleton.mp hnew]
      exact hproposal
  · intro row hmem
    rcases List.mem_append.mp hmem with hold | hnew
    · exact (h.exposures_fresh row hold).trans hthree
    · obtain ⟨candidate, -, rfl⟩ := List.mem_map.mp hnew
      exact hthree
  · intro id queryId hquery
    have hupdate : Function.update t.blastRadiusQueryId (t.db.nextId + 1) (some t.db.nextId) id =
      some queryId := hquery
    by_cases hid : id = t.db.nextId + 1
    · rw [hid, Function.update_self] at hupdate
      cases hupdate
      exact hthree
    · rw [Function.update_of_ne hid] at hupdate
      exact (h.queries_fresh id queryId hupdate).trans hthree
  · intro proposal hmem hnone
    rcases List.mem_append.mp hmem with hold | hnew
    · obtain ⟨request, hrequest, hgoverns⟩ := h.governed proposal hold hnone
      obtain ⟨queryId, hquery, hrequired⟩ := hgoverns.required
      refine ⟨request, List.mem_append_left _ hrequest, { hgoverns with required := ?_ }⟩
      have hid : proposal.id ≠ t.db.nextId + 1 := ((h.proposals_fresh proposal hold).trans hone).ne
      refine ⟨queryId, (Function.update_of_ne hid _ _).trans hquery, ?_⟩
      rw [hrequired, listed_blastRadius_other (h.queries_fresh _ _ hquery)]
    · rw [List.mem_singleton.mp hnew]
      refine ⟨_, List.mem_append_right _ (List.mem_singleton.mpr rfl), ?_⟩
      constructor
      · rfl
      · rfl
      · refine ⟨t.db.nextId, Function.update_self _ _ _, ?_⟩
        rw [listed_blastRadius_self h]
      · exact List.nodup_nil
      · exact nofun
      · exact nofun
      · exact nofun
      · exact ⟨nofun, nofun⟩
  · intro request hmem
    rcases List.mem_append.mp hmem with hold | hnew
    · obtain ⟨proposal, hin, hid, hnone⟩ := h.about request hold
      exact ⟨proposal, List.mem_append_left _ hin, hid, hnone⟩
    · rw [List.mem_singleton.mp hnew]
      exact ⟨_, List.mem_append_right _ (List.mem_singleton.mpr rfl), rfl, rfl⟩

/-! ## An approval -/

/-- The checks of an approval. -/
theorem ensureApprovable_ok {row : ApprovalRequest} {userId : Uuid} :
    ensureApprovable row userId = .ok () ↔ row.status = .pending ∧ row.requesterId ≠ userId ∧
      ∀ entry ∈ row.approvals, entry.userId ≠ userId := by
  have hduplicate : (row.approvals.any fun entry => decide (entry.userId = userId)) = true ↔
      ¬ ∀ entry ∈ row.approvals, entry.userId ≠ userId := by
    simp
  unfold ensureApprovable
  by_cases hpending : row.status = .pending
  · rw [if_neg (not_not.mpr hpending)]
    by_cases hrequester : row.requesterId = userId
    · rw [if_pos hrequester]
      exact iff_of_false nofun fun h => h.2.1 hrequester
    · rw [if_neg hrequester]
      by_cases hnew : ∀ entry ∈ row.approvals, entry.userId ≠ userId
      · rw [if_neg fun hany => hduplicate.mp hany hnew]
        exact iff_of_true rfl ⟨hpending, hrequester, hnew⟩
      · rw [if_pos (hduplicate.mpr hnew)]
        exact iff_of_false nofun fun h => hnew h.2.2
  · rw [if_pos hpending]
    exact iff_of_false nofun fun h => hpending h.1

/-- What an accepted approval found and wrote. -/
theorem approve_ok {t' : RiskTables} {approvalId userId : Uuid} {body : ApprovalInput} {now : Instant}
    (h : approve t approvalId body userId now = .ok t') :
    ∃ approval ∈ t.approvalRequests, approval.id = approvalId ∧ approval.status = .pending ∧
      approval.requesterId ≠ userId ∧ (∀ entry ∈ approval.approvals, entry.userId ≠ userId) ∧
      t'.approvalRequests = modifyWhere (fun row => decide (row.id = approvalId))
        (fun _ => approval.add ⟨userId, body.reason, now⟩) t.approvalRequests ∧
      t'.exposures = t.exposures ∧ t'.blastRadiusQueryId = t.blastRadiusQueryId ∧
      t'.db.nextId = t.db.nextId ∧
      t'.db.containmentProposals =
        if (approval.add ⟨userId, body.reason, now⟩).status = .approved then
          modifyWhere (fun row => decide (row.id = approval.targetId))
            (approveProposal ⟨userId, body.reason, now⟩) t.db.containmentProposals
        else t.db.containmentProposals := by
  unfold approve at h
  obtain ⟨approval, hfound, h⟩ := bind_ok.mp h
  obtain ⟨_, happrovable, h⟩ := bind_ok.mp h
  have hmem : approval ∈ t.approvalRequests ∧ approval.id = approvalId := by
    unfold findApproval at hfound
    split at hfound
    · rename_i row hrow
      cases hfound
      exact ⟨List.mem_of_find?_eq_some hrow, by simpa using List.find?_some hrow⟩
    · cases hfound
  obtain ⟨hpending, hrequester, hduplicate⟩ := ensureApprovable_ok.mp happrovable
  have hresult := pure_ok.mp h
  refine ⟨approval, hmem.1, hmem.2, hpending, hrequester, hduplicate, ?_⟩
  split at hresult
  · rename_i hstatus
    rw [← hresult, if_pos hstatus]
    exact ⟨rfl, rfl, rfl, rfl, rfl⟩
  · rename_i hstatus
    rw [← hresult, if_neg hstatus]
    exact ⟨rfl, rfl, rfl, rfl, rfl⟩

theorem add_keeps (approval : ApprovalRequest) (entry : ApprovalEntry) :
    (approval.add entry).id = approval.id ∧ (approval.add entry).targetId = approval.targetId ∧
      (approval.add entry).requesterId = approval.requesterId ∧
      (approval.add entry).requiredApprovals = approval.requiredApprovals ∧
      (approval.add entry).approvals = approval.approvals ++ [entry] := by
  unfold ApprovalRequest.add
  split <;> exact ⟨rfl, rfl, rfl, rfl, rfl⟩

theorem add_status {approval : ApprovalRequest} (h : approval.status = .pending)
    (entry : ApprovalEntry) : (approval.add entry).status = .approved ↔
      approval.requiredApprovals ≤ approval.approvals.length + 1 := by
  unfold ApprovalRequest.add
  split
  · rename_i hreached
    exact ⟨fun _ => hreached, fun _ => rfl⟩
  · rename_i hreached
    show approval.status = .approved ↔ _
    rw [h]
    exact ⟨nofun, fun hle => absurd hle hreached⟩

theorem Separated.approves (h : Separated threshold t) {t' : RiskTables} {approvalId userId : Uuid}
    {body : ApprovalInput} {now : Instant} (hok : approve t approvalId body userId now = .ok t') :
    Separated threshold t' := by
  obtain ⟨approval, hmem, hid, hpending, hrequester, hduplicate, hrequests, hexposures, hqueries,
    hnextId, hproposals⟩ := approve_ok hok
  obtain ⟨haddId, haddTarget, haddRequester, haddRequired, haddApprovals⟩ :=
    add_keeps approval ⟨userId, body.reason, now⟩
  have hrows : t'.approvalRequests = modifyWhere (fun row => decide (row.id = approvalId))
      (fun row => row.add ⟨userId, body.reason, now⟩) t.approvalRequests := by
    rw [hrequests]
    refine List.map_congr_left fun row hrow => ?_
    by_cases hrowId : row.id = approvalId
    · rw [eq_of_nodup_map h.approvalIds hrow hmem (hrowId.trans hid.symm)]
    · simp [hrowId]
  have hold : ∀ request' ∈ t'.approvalRequests, ∃ request ∈ t.approvalRequests,
      request'.id = request.id ∧ request'.targetId = request.targetId := by
    intro request' hin
    rw [hrows] at hin
    obtain ⟨request, hrequest, rfl⟩ := mem_modifyWhere.mp hin
    refine ⟨request, hrequest, ?_⟩
    split
    · exact ⟨(add_keeps request _).1, (add_keeps request _).2.1⟩
    · exact ⟨rfl, rfl⟩
  -- a proposal is as before, or the one the completed request is about
  have hproposal : ∀ proposal', proposal' ∈ t'.db.containmentProposals ↔
      ∃ proposal ∈ t.db.containmentProposals, proposal' =
        if (approval.add ⟨userId, body.reason, now⟩).status = .approved ∧
          proposal.id = approval.targetId then approveProposal ⟨userId, body.reason, now⟩ proposal
        else proposal := by
    intro proposal'
    rw [hproposals]
    by_cases hdone : (approval.add ⟨userId, body.reason, now⟩).status = .approved
    · simp only [hdone, if_true, true_and]
      rw [mem_modifyWhere]
      simp only [decide_eq_true_eq]
    · simp [hdone]
  have hproposalIds : t'.db.containmentProposals.map (·.id) = t.db.containmentProposals.map (·.id) := by
    rw [hproposals]
    split
    · exact map_modifyWhere (f := approveProposal ⟨userId, body.reason, now⟩) (fun _ => rfl) _
    · rfl
  constructor
  · rw [hproposalIds]
    exact h.proposalIds
  · rw [hrows]
    refine (map_modifyWhere (f := fun row => row.add ⟨userId, body.reason, now⟩)
      (fun row => (add_keeps row _).1) t.approvalRequests).symm ▸ h.approvalIds
  · rw [hrows]
    refine (map_modifyWhere (f := fun row => row.add ⟨userId, body.reason, now⟩)
      (fun row => (add_keeps row _).2.1) t.approvalRequests).symm ▸ h.targets
  · intro proposal' hin
    obtain ⟨proposal, hproposalMem, heq⟩ := (hproposal proposal').mp hin
    have hsame : proposal'.id = proposal.id := by
      rw [heq]
      split <;> rfl
    rw [hsame, hnextId]
    exact h.proposals_fresh proposal hproposalMem
  · intro request' hin
    obtain ⟨request, hrequest, hsame, -⟩ := hold request' hin
    rw [hsame, hnextId]
    exact h.approvals_fresh request hrequest
  · intro request' hin
    obtain ⟨request, hrequest, -, hsame⟩ := hold request' hin
    rw [hsame, hnextId]
    exact h.targets_fresh request hrequest
  · rw [hexposures, hnextId]
    exact h.exposures_fresh
  · rw [hqueries, hnextId]
    exact h.queries_fresh
  · intro proposal' hin hnone
    obtain ⟨proposal, hproposalMem, heq⟩ := (hproposal proposal').mp hin
    have hproposalNone : proposal.nonconformanceId = none := by
      rw [heq] at hnone
      split at hnone <;> exact hnone
    obtain ⟨request, hrequest, hgoverns⟩ := h.governed proposal hproposalMem hproposalNone
    have hrequired : ∃ queryId, t'.blastRadiusQueryId proposal.id = some queryId ∧
        request.requiredApprovals = approvalsRequired threshold (listed t' queryId) := by
      rw [hqueries]
      unfold listed
      rw [hexposures]
      exact hgoverns.required
    by_cases hown : request.id = approvalId
    · obtain rfl := eq_of_nodup_map h.approvalIds hrequest hmem (hown.trans hid.symm)
      have hadded : request.add ⟨userId, body.reason, now⟩ ∈ t'.approvalRequests := by
        rw [hrows]
        exact mem_modifyWhere.mpr ⟨request, hrequest, by simp [hown]⟩
      have hdistinct : ((request.approvals ++ [(⟨userId, body.reason, now⟩ : ApprovalEntry)]).map
          (·.userId)).Nodup := nodup_map_append hgoverns.distinct hduplicate
      have hothers : ∀ entry ∈ request.approvals ++ [(⟨userId, body.reason, now⟩ : ApprovalEntry)],
          entry.userId ≠ request.requesterId := by
        intro entry hentry
        rcases List.mem_append.mp hentry with hbefore | hlast
        · exact hgoverns.others entry hbefore
        · rw [List.mem_singleton.mp hlast]
          exact hrequester.symm
      have hcomplete : (request.add ⟨userId, body.reason, now⟩).status = .approved →
          (request.add ⟨userId, body.reason, now⟩).requiredApprovals ≤
            (request.add ⟨userId, body.reason, now⟩).approvals.length := by
        intro hdone
        rw [haddRequired, haddApprovals, List.length_append]
        exact (add_status hpending _).mp hdone
      have hproposedBy : proposal'.id = proposal.id ∧ proposal'.proposedBy = proposal.proposedBy := by
        rw [heq]
        split <;> exact ⟨rfl, rfl⟩
      refine ⟨_, hadded, ?_⟩
      constructor
      · rw [haddTarget, hgoverns.target, hproposedBy.1]
      · rw [haddRequester, hgoverns.requester, hproposedBy.2]
      · rw [hproposedBy.1, haddRequired]
        exact hrequired
      · rw [haddApprovals]
        exact hdistinct
      · rw [haddApprovals, haddRequester]
        exact hothers
      · exact hcomplete
      · rw [heq]
        split
        · exact nofun
        · exact hgoverns.unreviewed
      · rw [heq]
        by_cases hdone : (request.add ⟨userId, body.reason, now⟩).status = .approved
        · rw [if_pos ⟨hdone, hgoverns.target.symm⟩]
          exact ⟨fun _ => hdone, fun _ => rfl⟩
        · rw [if_neg (fun hboth => hdone hboth.1), hgoverns.status, hpending]
          exact ⟨nofun, fun hboth => absurd hboth hdone⟩
    · have hother : proposal.id ≠ approval.targetId := by
        intro hsame
        have heqRequest := eq_of_nodup_map h.targets hrequest hmem (hgoverns.target.trans hsame)
        exact hown (heqRequest ▸ hid)
      rw [if_neg (fun hboth => hother hboth.2)] at heq
      subst heq
      refine ⟨request, ?_, { hgoverns with required := hrequired }⟩
      rw [hrows]
      exact mem_modifyWhere.mpr ⟨request, hrequest, by simp [hown]⟩
  · intro request' hin
    obtain ⟨request, hrequest, -, htarget⟩ := hold request' hin
    obtain ⟨proposal, hproposalMem, hproposalId, hnone⟩ := h.about request hrequest
    refine ⟨_, (hproposal _).mpr ⟨proposal, hproposalMem, rfl⟩, ?_, ?_⟩
    · rw [htarget, ← hproposalId]
      split <;> rfl
    · split
      · exact hnone
      · exact hnone

/-! ## Every call -/

theorem separated_exec (h : Separated threshold t) (call : RiskCall) :
    Separated threshold (execRisk threshold t call).1 := by
  cases call with
  | blastRadius body userId => exact h.queries body userId
  | approve approvalId body userId now =>
    cases hok : approve t approvalId body userId now with
    | error error => simpa only [execRisk, hok, commitRisk] using h
    | ok t' => simpa only [execRisk, hok, commitRisk] using h.approves hok
  | proposeContainment ncrId body userId =>
    cases hok : proposeContainment t.db ncrId body userId with
    | error error => simpa only [execRisk, hok, commitRisk, Except.map] using h
    | ok result =>
      simpa only [execRisk, hok, commitRisk, Except.map] using h.keeps (keepsBlast_propose hok)
  | reviewContainment proposalId body userId now =>
    cases hok : reviewContainment t.db proposalId body userId now with
    | error error => simpa only [execRisk, hok, commitRisk, Except.map] using h
    | ok db' => simpa only [execRisk, hok, commitRisk, Except.map] using h.keeps (keepsBlast_review hok)

/-- No call changes an approved proposal of a blast radius query. -/
theorem approved_exec (h : Separated threshold t) (call : RiskCall) {proposal : ContainmentProposal}
    (hmem : proposal ∈ t.db.containmentProposals) (hnone : proposal.nonconformanceId = none)
    (happroved : proposal.status = .approved) :
    proposal ∈ (execRisk threshold t call).1.db.containmentProposals := by
  cases call with
  | blastRadius body userId => exact List.mem_append_left _ hmem
  | approve approvalId body userId now =>
    cases hok : approve t approvalId body userId now with
    | error error => simpa only [execRisk, hok, commitRisk] using hmem
    | ok t' =>
      simp only [execRisk, hok, commitRisk]
      obtain ⟨approval, hin, -, hpending, -, -, -, -, -, -, hproposals⟩ := approve_ok hok
      have hother : proposal.id ≠ approval.targetId := by
        intro hsame
        obtain ⟨request, hrequest, hgoverns⟩ := h.governed proposal hmem hnone
        have heq := eq_of_nodup_map h.targets hrequest hin (hgoverns.target.trans hsame)
        have hstatus := hgoverns.status.mp happroved
        rw [heq, hpending] at hstatus
        cases hstatus
      rw [hproposals]
      split
      · exact mem_modifyWhere.mpr ⟨proposal, hmem, by simp [hother]⟩
      · exact hmem
  | proposeContainment ncrId body userId =>
    cases hok : proposeContainment t.db ncrId body userId with
    | error error => simpa only [execRisk, hok, commitRisk, Except.map] using hmem
    | ok result =>
      simpa only [execRisk, hok, commitRisk, Except.map] using
        ((keepsBlast_propose hok).rows h.proposalIds proposal hnone).mpr hmem
  | reviewContainment proposalId body userId now =>
    cases hok : reviewContainment t.db proposalId body userId now with
    | error error => simpa only [execRisk, hok, commitRisk, Except.map] using hmem
    | ok db' =>
      simpa only [execRisk, hok, commitRisk, Except.map] using
        ((keepsBlast_review hok).rows h.proposalIds proposal hnone).mpr hmem

end Calls

/-! ## Every sequence of calls -/

/-- What separation of duties asks of a proposal of a blast radius query. -/
structure DutiesSeparated (threshold : ℕ) (t : RiskTables) (proposal : ContainmentProposal) : Prop where
  /-- The request of the proposal: there is one, and no other. -/
  request : ∃ request ∈ t.approvalRequests, request.targetId = proposal.id ∧
    (∀ other ∈ t.approvalRequests, other.targetId = proposal.id → other = request) ∧
    request.requesterId = proposal.proposedBy ∧
    (∃ queryId, t.blastRadiusQueryId proposal.id = some queryId ∧
      (threshold ≤ listed t queryId → request.requiredApprovals = 2)) ∧
    (proposal.status = .approved → request.status = .approved ∧
      request.requiredApprovals ≤ request.approvals.length ∧
      (request.approvals.map (·.userId)).Nodup ∧
      ∀ entry ∈ request.approvals, entry.userId ≠ request.requesterId)

/-- No proposal has been made yet. -/
structure NoProposals (t : RiskTables) : Prop where
  proposals : t.db.containmentProposals = []
  approvalRequests : t.approvalRequests = []
  exposures : t.exposures = []
  blastRadiusQueryId : ∀ id, t.blastRadiusQueryId id = none

theorem separated_initial {threshold : ℕ} {t : RiskTables} (h : NoProposals t) :
    Separated threshold t := by
  constructor
  · simp [h.proposals]
  · simp [h.approvalRequests]
  · simp [h.approvalRequests]
  · simp [h.proposals]
  · simp [h.approvalRequests]
  · simp [h.approvalRequests]
  · simp [h.exposures]
  · simp [h.blastRadiusQueryId]
  · simp [h.proposals]
  · simp [h.approvalRequests]

/-- In every state some sequence of calls leads to, a proposal of a blast radius query is approved only
by its completed request, and once approved no call changes it. -/
theorem duties_separated (threshold : ℕ) {t : RiskTables}
    (h : Machine.Reachable (execRisk threshold) NoProposals t) :
    ∀ proposal ∈ t.db.containmentProposals, proposal.nonconformanceId = none →
      DutiesSeparated threshold t proposal ∧
        (proposal.status = .approved → ∀ calls,
          proposal ∈ (Machine.run (execRisk threshold) t calls).db.containmentProposals) := by
  have hsep : Separated threshold t := Machine.reachable_invariant (P := Separated threshold)
    (fun _ hstart => separated_initial hstart) (fun _ call hs => separated_exec hs call) h
  intro proposal hmem hnone
  obtain ⟨request, hrequest, hgoverns⟩ := hsep.governed proposal hmem hnone
  refine ⟨⟨request, hrequest, hgoverns.target, ?_, hgoverns.requester, ?_, fun happroved => ?_⟩, ?_⟩
  · intro other hother htarget
    exact eq_of_nodup_map hsep.targets hother hrequest (htarget.trans hgoverns.target.symm)
  · obtain ⟨queryId, hquery, hrequired⟩ := hgoverns.required
    exact ⟨queryId, hquery, fun hmass => by rw [hrequired, approvalsRequired, if_pos hmass]⟩
  · have hstatus := hgoverns.status.mp happroved
    exact ⟨hstatus, hgoverns.complete hstatus, hgoverns.distinct, hgoverns.others⟩
  · intro happroved calls
    have hrun := Machine.run_invariant
      (P := fun u => Separated threshold u ∧ proposal ∈ u.db.containmentProposals)
      (fun u call hu => ⟨separated_exec hu.1 call, approved_exec hu.1 call hu.2 hnone happroved⟩)
      ⟨hsep, hmem⟩ calls
    exact hrun.2

/-- User 1 asks for a hold, and user 2 approves it. -/
def holdCalls : List RiskCall :=
  [.blastRadius ⟨.timeInterval, "shift", 0, 10, .hold, "suspected drift", by decide, by decide⟩ 1,
    .approve 2 ⟨"checked"⟩ 2 5]

theorem duties_separated_hold : ∃ proposal ∈
    (Machine.run (execRisk 20) { db := {} } holdCalls).db.containmentProposals,
      proposal.status = .approved ∧
        DutiesSeparated 20 (Machine.run (execRisk 20) { db := {} } holdCalls) proposal := by
  have hreachable : Machine.Reachable (execRisk 20) NoProposals
      (Machine.run (execRisk 20) { db := {} } holdCalls) :=
    ⟨{ db := {} }, holdCalls, ⟨rfl, rfl, rfl, fun _ => rfl⟩, rfl⟩
  have hmem : (⟨1, none, 1, .hold, "suspected drift", .approved, some 2, some "checked", some 5⟩ :
      ContainmentProposal) ∈
      (Machine.run (execRisk 20) { db := {} } holdCalls).db.containmentProposals := by decide
  exact ⟨_, hmem, rfl, (duties_separated 20 hreachable _ hmem rfl).1⟩

end TraceQ.Properties
