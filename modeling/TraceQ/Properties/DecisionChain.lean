import TraceQ.Backend.Decisions
import TraceQ.Library.Transactions
import TraceQ.Properties.Reopening

/-! # Decisions side by side

The three endpoints that make decisions load the nonconformance, read its latest decision and commit without
a lock. Where each commit finds its reads still current the decisions form one chain; two decisions made at
once fork it.
-/
namespace TraceQ.Properties
open Projections Api Quality Tables Results Transactions Backend
set_option autoImplicit false
set_option maxHeartbeats 250000

/-! ## One decision -/

/-- What is asked for. Whether a verification passes is read from the runs and the observations. -/
inductive DecisionKind where
  | decide (body : DecisionRequest)
  | verifyRework (body : ReworkVerificationRequest) (effectivePass : Bool)
  | requestInspection (body : InspectionRequest)

/-- A transaction that makes a decision: `startedAt` is the `now()` of its inserts. -/
structure Making where
  kind : DecisionKind
  userId : Uuid
  startedAt : Instant
  now : Instant

section Making
variable (making : Making) (id : Uuid) (row : Nonconformance)

/-- The row that is inserted; `row` is the nonconformance that was loaded. -/
def Making.decision (latest : Option ControllerDecision) : ControllerDecision :=
  let make := fun verdict disposition containment reason =>
    { id := id
      nonconformanceId := row.id
      userId := making.userId
      verdict := verdict
      disposition := disposition
      containment := containment
      reason := reason
      analysisVersion := row.currentAnalysisVersion
      previousDecisionId := latest.map (·.id)
      createdAt := making.startedAt : ControllerDecision }
  match making.kind with
  | .decide body => make body.verdict body.disposition body.containment body.reason
  | .verifyRework body true => make .confirmed .released .none body.reason
  | .verifyRework body false => make .confirmed .reworkRequired .hold body.reason
  | .requestInspection body => make .needsExtraCheck row.disposition .reinspectionRequired body.reason

/-- The loaded nonconformance after the endpoint has set its attributes. -/
def Making.change : Nonconformance :=
  match making.kind with
  | .decide body =>
      if exportable body.disposition then { applyDecision body row with closedAt := some making.now }
      else applyDecision body row
  | .verifyRework _ true => { verifiedNcr row id making.now with closedAt := some making.now }
  | .verifyRework _ false => failedNcr row id
  | .requestInspection _ =>
      { row with verdict := .needsExtraCheck, containment := .reinspectionRequired }

/-- The release policy lets a final decision pass. -/
def Making.Authorized (latest : Option ControllerDecision) : Prop :=
  match making.kind with
  | .decide body => exportable body.disposition = true →
      authorize (applyDecision body row) (making.decision id row latest) = .ok ()
  | _ => True

end Making

/-- Whatever is decided becomes the disposition of the loaded nonconformance. -/
theorem change_disposition (making : Making) (id : Uuid) (row : Nonconformance)
    (latest : Option ControllerDecision) :
    (making.change id row).disposition = (making.decision id row latest).disposition := by
  obtain ⟨kind, userId, startedAt, now⟩ := making
  cases kind with
  | decide body =>
    simp only [Making.change, Making.decision]
    by_cases hexport : exportable body.disposition = true
    · rw [if_pos hexport]
      simp only [applyDecision]
      split <;> rfl
    · rw [if_neg hexport]
      simp only [applyDecision]
      split <;> rfl
  | verifyRework body effectivePass => cases effectivePass <;> rfl
  | requestInspection body => rfl

/-- Whatever is asked for, the row is about the nonconformance and names the decision that was read. -/
theorem decision_row (making : Making) (id : Uuid) (row : Nonconformance)
    (latest : Option ControllerDecision) :
    (making.decision id row latest).id = id ∧
      (making.decision id row latest).nonconformanceId = row.id ∧
      (making.decision id row latest).previousDecisionId = latest.map (·.id) := by
  obtain ⟨kind, userId, startedAt, now⟩ := making
  cases kind with
  | decide body => exact ⟨rfl, rfl, rfl⟩
  | verifyRework body effectivePass => cases effectivePass <;> exact ⟨rfl, rfl, rfl⟩
  | requestInspection body => exact ⟨rfl, rfl, rfl⟩

/-! ## The transactions -/

/-- A nonconformance with its committed decisions, in the order of their commits. -/
structure DecisionTables where
  ncr : Nonconformance
  decisions : List ControllerDecision
  nextId : ℕ

inductive DecisionTransaction where
  | starts (making : Making)
  | loaded (making : Making) (row : Nonconformance)
  | read (making : Making) (row : Nonconformance) (latest : Option ControllerDecision)

/-- The `UPDATE` of the commit sets the columns that differ from the loaded row. -/
def writeColumn {α : Type} [DecidableEq α] (loaded changed stored : α) : α :=
  if changed = loaded then stored else changed

def writeNcr (loaded changed stored : Nonconformance) : Nonconformance :=
  { stored with
    verdict := writeColumn loaded.verdict changed.verdict stored.verdict
    disposition := writeColumn loaded.disposition changed.disposition stored.disposition
    containment := writeColumn loaded.containment changed.containment stored.containment
    closedAt := writeColumn loaded.closedAt changed.closedAt stored.closedAt
    resolutionType := writeColumn loaded.resolutionType changed.resolutionType stored.resolutionType
    resolvedAt := writeColumn loaded.resolvedAt changed.resolvedAt stored.resolvedAt
    verificationDecisionId :=
      writeColumn loaded.verificationDecisionId changed.verificationDecisionId stored.verificationDecisionId
    verificationStatus :=
      writeColumn loaded.verificationStatus changed.verificationStatus stored.verificationStatus }

inductive DecisionMoves (w : World DecisionTables DecisionTransaction) :
    DecisionTransaction → DecisionTransaction → Prop where
  | loads (making : Making) : DecisionMoves w (.starts making) (.loaded making w.committed.ncr)
  | reads (making : Making) (row : Nonconformance) :
      DecisionMoves w (.loaded making row)
        (.read making row (latestBy (·.createdAt) w.committed.decisions))

inductive DecisionCommits (w : World DecisionTables DecisionTransaction) :
    DecisionTransaction → DecisionTables → Option DecisionTransaction → Prop where
  | commits (making : Making) (row : Nonconformance) (latest : Option ControllerDecision)
      (authorized : making.Authorized w.committed.nextId row latest) :
      DecisionCommits w (.read making row latest)
        { ncr := writeNcr row (making.change w.committed.nextId row) w.committed.ncr
          decisions := w.committed.decisions ++ [making.decision w.committed.nextId row latest]
          nextId := w.committed.nextId + 1 } none

/-- Decisions, verifications and requests on one nonconformance. What an endpoint refuses is rolled back. -/
def decisionProtocol : Protocol DecisionTables DecisionTransaction where
  begins l := ∃ making, l = .starts making
  moves w _ := DecisionMoves w
  commits w _ := DecisionCommits w
  rollsBack _ := True

/-! ## The endpoints

An endpoint that no other one interrupts takes one turn of the protocol.
-/

/-- The rows about one nonconformance. -/
def decisionTables (db : Database) (row : Nonconformance) : DecisionTables where
  ncr := row
  decisions := db.controllerDecisions.filter fun d => decide (d.nonconformanceId = row.id)
  nextId := db.nextId

/-- The tables after a transaction that runs alone. -/
def Making.turn (making : Making) (s : DecisionTables) : DecisionTables where
  ncr := making.change s.nextId s.ncr
  decisions := s.decisions ++
    [making.decision s.nextId s.ncr (latestBy (·.createdAt) s.decisions)]
  nextId := s.nextId + 1

theorem writeColumn_self {α : Type} [DecidableEq α] (loaded changed : α) :
    writeColumn loaded changed loaded = changed := by
  unfold writeColumn
  split
  · rename_i hsame
    exact hsame.symm
  · rfl

/-- Only these columns are changed, so nothing else has to be written. -/
theorem writeNcr_change (making : Making) (id : Uuid) (row : Nonconformance) :
    writeNcr row (making.change id row) row = making.change id row := by
  obtain ⟨kind, userId, startedAt, now⟩ := making
  simp only [writeNcr, writeColumn_self]
  cases kind with
  | decide body =>
    by_cases hexport : exportable body.disposition = true
    · simp only [Making.change, if_pos hexport, applyDecision]
      split <;> rfl
    · simp only [Making.change, if_neg hexport, applyDecision]
      split <;> rfl
  | verifyRework body effectivePass => cases effectivePass <;> rfl
  | requestInspection body => rfl

theorem turn_reachable {C : World DecisionTables DecisionTransaction → ℕ → DecisionTransaction → Prop}
    (s : DecisionTables) (making : Making)
    (hauthorized : making.Authorized s.nextId s.ncr (latestBy (·.createdAt) s.decisions))
    (hallowed : C (Protocol.alone s (.read making s.ncr (latestBy (·.createdAt) s.decisions))) 0
      (.read making s.ncr (latestBy (·.createdAt) s.decisions))) :
    (decisionProtocol.restrict C).Reachable (World.quiet s) (World.quiet (making.turn s)) := by
  have hbegins : (decisionProtocol.restrict C).Reachable (World.quiet s)
      (Protocol.alone s (.starts making)) := Protocol.alone_begins _ ⟨making, rfl⟩
  have hloads := Protocol.alone_moves hbegins (DecisionMoves.loads making)
  have hreads := Protocol.alone_moves hloads (DecisionMoves.reads making _)
  have hcommits := Protocol.alone_commits hreads ⟨.commits making _ _ hauthorized, hallowed⟩
  simp only [Protocol.alone_committed, writeNcr_change] at hcommits
  exact hcommits

/-- The call loads the nonconformance and commits what the protocol commits in one turn. -/
def TakesTurn (db : Database) (ncrId : Uuid) (making : Making) (db' : Database) : Prop :=
  ∃ row, ncrOr404 db ncrId = .ok row ∧ making.change db.nextId row ∈ db'.nonconformances ∧
    decisionProtocol.Reachable (World.quiet (decisionTables db row))
      (World.quiet (decisionTables db' (making.change db.nextId row)))

theorem change_id (making : Making) (id : Uuid) (row : Nonconformance) :
    (making.change id row).id = row.id := by
  rw [← writeNcr_change]
  rfl

theorem takesTurn {db db' : Database} {ncrId : Uuid} {making : Making} {row : Nonconformance}
    (hrow : ncrOr404 db ncrId = .ok row)
    (hauthorized : making.Authorized db.nextId row (latestDecision db row.id))
    (hdecisions : db'.controllerDecisions =
      db.controllerDecisions ++ [making.decision db.nextId row (latestDecision db row.id)])
    (hrows : db'.nonconformances = (saveNcr db (making.change db.nextId row)).nonconformances)
    (hnext : db'.nextId = db.nextId + 1) : TakesTurn db ncrId making db' := by
  refine ⟨row, hrow, ?_, ?_⟩
  · rw [hrows]
    refine mem_modifyWhere.mpr ⟨row, (ncrOr404_ok hrow).1, ?_⟩
    rw [if_pos (decide_eq_true (change_id making _ row).symm)]
  · have htables : decisionTables db' (making.change db.nextId row) =
        making.turn (decisionTables db row) := by
      have hlatest : latestDecision db row.id =
          latestBy (·.createdAt) (decisionTables db row).decisions := rfl
      rw [decisionTables, Making.turn, hdecisions, hnext, change_id, List.filter_append,
        List.filter_singleton, (decision_row _ _ _ _).2.1, decide_eq_true rfl, hlatest]
      rfl
    rw [htables]
    exact Protocol.reachable_of_restrict (C := fun _ _ _ => True)
      (turn_reachable (decisionTables db row) making hauthorized trivial)

theorem decideNonconformance_turn {db db' : Database} {ncrId userId : Uuid} {body : DecisionRequest}
    {now : Instant} {response : DecisionResponse} (hs : Sound db)
    (h : decideNonconformance db ncrId body userId now = .ok (db', response)) :
    TakesTurn db ncrId { kind := .decide body, userId := userId, startedAt := now, now := now } db' := by
  obtain ⟨row, hmem, rfl, -, hdb⟩ := decideNonconformance_ok hs.results_fresh h
  have hrow := ncrOr404_of_mem hs.toWellFormed hmem
  rcases hdb with ⟨hexport, rfl⟩ | ⟨hexport, hauthorized, rfl⟩
  · refine takesTurn hrow ?_ rfl ?_ rfl
    · intro hyes
      rw [hexport] at hyes
      cases hyes
    · simp only [Making.change, hexport, Bool.false_eq_true, if_false]
      rfl
  · refine takesTurn hrow (fun _ => hauthorized) rfl ?_ rfl
    simp only [Making.change, hexport, if_true]
    rfl

theorem verifyRework_turn {db db' : Database} {ncrId userId : Uuid} {body : ReworkVerificationRequest}
    {now : Instant} {response : VerificationResponse} (hs : Sound db)
    (h : verifyRework db ncrId body userId now = .ok (db', response)) :
    ∃ effectivePass, TakesTurn db ncrId
      { kind := .verifyRework body effectivePass, userId := userId, startedAt := now, now := now } db' := by
  obtain ⟨row, finishedAt, hrow, -, hdb⟩ := verifyRework_ok hs.results_fresh h
  rcases hdb with ⟨-, -, -, rfl⟩ | ⟨-, -, rfl⟩
  · exact ⟨true, takesTurn hrow trivial rfl rfl rfl⟩
  · exact ⟨false, takesTurn hrow trivial rfl rfl rfl⟩

theorem requestInspection_turn {db db' : Database} {ncrId userId decisionId : Uuid}
    {body : InspectionRequest} {now : Instant} (hs : Sound db)
    (h : requestInspection db ncrId body userId now = .ok (db', decisionId)) :
    TakesTurn db ncrId { kind := .requestInspection body, userId := userId, startedAt := now, now := now }
      db' := by
  obtain ⟨row, hmem, rfl, rfl⟩ := requestInspection_ok h
  exact takesTurn (ncrOr404_of_mem hs.toWellFormed hmem) trivial rfl rfl rfl

/-! ## One chain -/

/-- Each decision names the one committed before it, and the first names none. -/
def ChainedDecisions (decisions : List ControllerDecision) : Prop :=
  decisions.map (·.previousDecisionId) = (none :: decisions.map fun d => some d.id).dropLast

structure LinearHistory (s : DecisionTables) : Prop where
  chain : ChainedDecisions s.decisions
  ids : (s.decisions.map (·.id)).Nodup
  fresh : ∀ d ∈ s.decisions, d.id < s.nextId
  current : ∀ last, s.decisions.getLast? = some last → s.ncr.disposition = last.disposition

theorem dropLast_append_last (decisions : List ControllerDecision) :
    (none :: decisions.map fun d => some d.id).dropLast ++ [decisions.getLast?.map (·.id)] =
      none :: decisions.map fun d => some d.id := by
  induction decisions using List.reverseRecOn with
  | nil => rfl
  | append_singleton front last _ =>
    rw [List.map_append, List.map_singleton, ← List.cons_append, List.dropLast_concat,
      List.getLast?_concat]
    rfl

theorem chainedDecisions_concat {decisions : List ControllerDecision} (h : ChainedDecisions decisions)
    (d : ControllerDecision) :
    ChainedDecisions (decisions ++ [d]) ↔ d.previousDecisionId = decisions.getLast?.map (·.id) := by
  have hlast := dropLast_append_last decisions
  unfold ChainedDecisions at h ⊢
  rw [List.map_append, List.map_append, List.map_singleton, List.map_singleton, ← List.cons_append,
    List.dropLast_concat, h, ← hlast, List.dropLast_concat, List.append_cancel_left_eq, List.singleton_inj]

/-- In a chain one decision has no predecessor, and no two have the same. -/
theorem LinearHistory.unshared {s : DecisionTables} (h : LinearHistory s) :
    (s.decisions ≠ [] → ∃! d, d ∈ s.decisions ∧ d.previousDecisionId = none) ∧
      ∀ d ∈ s.decisions, ∀ e ∈ s.decisions, d.previousDecisionId = e.previousDecisionId → d = e := by
  have hnodup : (s.decisions.map (·.previousDecisionId)).Nodup := by
    rw [h.chain]
    refine List.Nodup.sublist (List.dropLast_sublist _) ?_
    rw [List.nodup_cons]
    refine ⟨by simp, ?_⟩
    have hsome : (s.decisions.map fun d => some d.id) = (s.decisions.map (·.id)).map some := by
      rw [List.map_map]
      rfl
    rw [hsome]
    exact h.ids.map (Option.some_injective _)
  have hunshared : ∀ d ∈ s.decisions, ∀ e ∈ s.decisions,
      d.previousDecisionId = e.previousDecisionId → d = e :=
    fun d hd e he heq => eq_of_nodup_map hnodup hd he heq
  refine ⟨fun hne => ?_, hunshared⟩
  obtain ⟨first, rest, hlist⟩ := List.exists_cons_of_ne_nil hne
  have hfirst : first.previousDecisionId = none := by
    have hchain := h.chain
    rw [hlist, ChainedDecisions, List.map_cons, List.map_cons, List.dropLast_cons_of_ne_nil (List.cons_ne_nil _ _),
      List.cons.injEq] at hchain
    exact hchain.1
  have hmem : first ∈ s.decisions := hlist ▸ List.mem_cons_self
  exact ⟨first, ⟨hmem, hfirst⟩, fun d hd => hunshared d hd.1 first hmem (hd.2.trans hfirst.symm)⟩

/-! ## Commits whose reads are current -/

/-- The latest decision that was read is the last one committed, and the disposition of the nonconformance is
written or is already the decided one. -/
def ReadsCurrent (w : World DecisionTables DecisionTransaction) (_ : ℕ) : DecisionTransaction → Prop
  | .read making row latest =>
      latest.map (·.id) = w.committed.decisions.getLast?.map (·.id) ∧
        ((making.decision w.committed.nextId row latest).disposition = row.disposition →
          w.committed.ncr.disposition = row.disposition)
  | _ => True

/-- A commit keeps the history linear exactly when its reads are current. -/
theorem decision_commit_iff {w : World DecisionTables DecisionTransaction} {i : ℕ}
    {l : DecisionTransaction} {s : DecisionTables} {l' : Option DecisionTransaction}
    (h : LinearHistory w.committed) (hcommit : DecisionCommits w l s l') :
    LinearHistory s ↔ ReadsCurrent w i l := by
  cases hcommit with
  | commits making row latest authorized =>
    obtain ⟨hid, -, hprevious⟩ := decision_row making w.committed.nextId row latest
    have hwritten : writeColumn row.disposition (making.change w.committed.nextId row).disposition
          w.committed.ncr.disposition = (making.decision w.committed.nextId row latest).disposition ↔
        ((making.decision w.committed.nextId row latest).disposition = row.disposition →
          w.committed.ncr.disposition = row.disposition) := by
      rw [change_disposition making _ row latest, writeColumn]
      split
      · rename_i hsame
        exact ⟨fun hstored _ => hstored.trans hsame, fun hstored => (hstored hsame).trans hsame.symm⟩
      · rename_i hother
        exact iff_of_true rfl fun hsame => absurd hsame hother
    constructor
    · intro hlinear
      refine ⟨?_, hwritten.mp ?_⟩
      · rw [← hprevious]
        exact (chainedDecisions_concat h.chain _).mp hlinear.chain
      · exact hlinear.current _ List.getLast?_concat
    · rintro ⟨hlatest, hdisposition⟩
      refine ⟨(chainedDecisions_concat h.chain _).mpr (hprevious.trans hlatest), ?_, ?_, ?_⟩
      · refine nodup_map_append h.ids fun d hd => ?_
        rw [hid]
        exact (h.fresh d hd).ne
      · intro d hd
        rcases List.mem_append.mp hd with hold | hnew
        · exact (h.fresh d hold).trans (Nat.lt_succ_self _)
        · rw [List.mem_singleton.mp hnew, hid]
          exact Nat.lt_succ_self _
      · intro last hlast
        rw [List.getLast?_concat, Option.some.injEq] at hlast
        rw [← hlast]
        exact hwritten.mpr hdisposition

/-- In every interleaving whose commits find their reads current, the decisions form one chain and the
nonconformance has the disposition of the last of them. -/
theorem decisions_linear {start : DecisionTables} (hstart : LinearHistory start)
    {w : World DecisionTables DecisionTransaction}
    (h : (decisionProtocol.restrict ReadsCurrent).Reachable (World.quiet start) w) :
    (ChainedDecisions w.committed.decisions ∧
      ∀ last, w.committed.decisions.getLast? = some last →
        w.committed.ncr.disposition = last.disposition) ∧
      (w.committed.decisions ≠ [] →
        ∃! d, d ∈ w.committed.decisions ∧ d.previousDecisionId = none) ∧
      ∀ d ∈ w.committed.decisions, ∀ e ∈ w.committed.decisions,
        d.previousDecisionId = e.previousDecisionId → d = e := by
  have hlinear := (Protocol.committed_invariant (I := fun _ => True) (Q := LinearHistory)
    (fun _ _ _ _ => trivial)
    (fun w i l s l' _ hq _ hcommit hcurrent => (decision_commit_iff (i := i) hq hcommit).mpr hcurrent)
    trivial hstart h).2
  exact ⟨⟨hlinear.chain, hlinear.current⟩, hlinear.unshared⟩

/-! ### Two controllers -/

def openScratch : DecisionTables where
  ncr :=
    { id := 1
      occurrenceId := 0
      itemId := "item-1"
      defectType := "scratch"
      componentInstanceId := none
      openedAt := 10 }
  decisions := []
  nextId := 2

/-- The first controller asks for a rework. -/
def askRework : Making where
  kind := .decide
    { verdict := .confirmed
      disposition := .reworkRequired
      containment := .hold
      reason := "deep"
      allowed := confirmed_allowed
      valid_combination := confirmed_rework }
  userId := 100
  startedAt := 20
  now := 20

/-- The second controller asks for another inspection. -/
def lookAgain : Making where
  kind := .requestInspection { reason := "second look" }
  userId := 101
  startedAt := 21
  now := 21

theorem askRework_authorized (id : Uuid) (row : Nonconformance) (latest : Option ControllerDecision) :
    askRework.Authorized id row latest := by
  intro hexport
  exact absurd hexport (by decide)

/-- The tables after the first controller. -/
def decidedScratch : DecisionTables where
  ncr := writeNcr openScratch.ncr (askRework.change 2 openScratch.ncr) openScratch.ncr
  decisions := [askRework.decision 2 openScratch.ncr none]
  nextId := 3

theorem openScratch_linear : LinearHistory openScratch :=
  ⟨rfl, List.nodup_nil, nofun, nofun⟩

theorem decisions_linear_in_turn : ∃ w : World DecisionTables DecisionTransaction,
    w.committed.decisions.length = 2 ∧
    (ChainedDecisions w.committed.decisions ∧
      ∀ last, w.committed.decisions.getLast? = some last →
        w.committed.ncr.disposition = last.disposition) ∧
      (w.committed.decisions ≠ [] →
        ∃! d, d ∈ w.committed.decisions ∧ d.previousDecisionId = none) ∧
      ∀ d ∈ w.committed.decisions, ∀ e ∈ w.committed.decisions,
        d.previousDecisionId = e.previousDecisionId → d = e := by
  have hfirst : (decisionProtocol.restrict ReadsCurrent).Reachable (World.quiet openScratch)
      (World.quiet decidedScratch) :=
    turn_reachable openScratch askRework (askRework_authorized _ _ _) ⟨rfl, by decide⟩
  have hsecond : (decisionProtocol.restrict ReadsCurrent).Reachable (World.quiet decidedScratch)
      (World.quiet (lookAgain.turn decidedScratch)) :=
    turn_reachable decidedScratch lookAgain trivial ⟨by decide, fun _ => rfl⟩
  exact ⟨_, rfl, decisions_linear openScratch_linear (hfirst.trans hsecond)⟩

/-- Both controllers read the nonconformance before either decides: neither decision has a predecessor. -/
theorem decisions_fork : ¬ ∀ (start : DecisionTables) (w : World DecisionTables DecisionTransaction),
    start.decisions = [] → decisionProtocol.Reachable (World.quiet start) w →
    ∀ d ∈ w.committed.decisions, ∀ e ∈ w.committed.decisions,
      d.previousDecisionId = e.previousDecisionId → d = e := by
  intro h
  have hbegins : decisionProtocol.Reachable (World.quiet openScratch)
      (Protocol.alone openScratch (.starts askRework)) := Protocol.alone_begins _ ⟨_, rfl⟩
  have hloads := Protocol.alone_moves hbegins (DecisionMoves.loads askRework)
  have hreads := Protocol.alone_moves hloads (DecisionMoves.reads askRework _)
  have hboth : decisionProtocol.Reachable (World.quiet openScratch)
      (Protocol.both openScratch (.read askRework openScratch.ncr none) (.starts lookAgain)) :=
    Protocol.both_begins hreads ⟨_, rfl⟩
  have hloads' := Protocol.both_moves hboth (DecisionMoves.loads lookAgain)
  have hreads' := Protocol.both_moves hloads' (DecisionMoves.reads lookAgain _)
  have hsecond := Protocol.both_commits hreads'
    (DecisionCommits.commits lookAgain openScratch.ncr none trivial)
  have hfirst := Protocol.alone_commits hsecond
    (DecisionCommits.commits askRework openScratch.ncr none (askRework_authorized _ _ _))
  have hsame := h openScratch _ rfl hfirst _ List.mem_cons_self _
    (List.mem_cons_of_mem _ List.mem_cons_self) rfl
  exact absurd (congrArg ControllerDecision.userId hsame) (by decide)

end TraceQ.Properties
