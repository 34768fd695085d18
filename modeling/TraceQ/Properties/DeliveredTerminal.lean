import TraceQ.Worker.ExchangeMeaning

/-! # When a delivered message stays delivered

A manual retry checks the state of a message before it waits for the row. Unless it undoes a delivery
that was committed in between, a delivered message stays delivered and is not sent again.
-/
namespace TraceQ.Properties
open Worker Erp Tables Transactions Relation Protocol
set_option autoImplicit false
set_option maxHeartbeats 250000

/-- After the message was stored as delivered, it is stored otherwise or sent. -/
def Undoes (a b : OutboxEvent) : Prop :=
  ∃ messageId, a = .stored messageId .delivered ∧
    (b = .sent messageId ∨ ∃ state, state ≠ .delivered ∧ b = .stored messageId state)

structure DeliveredTerminal (x : Exchange) : Prop where
  history : x.history.Pairwise fun a b => ¬ Undoes a b
  rows : ∀ messageId, .stored messageId .delivered ∈ x.history →
    ∃ row ∈ x.outbox, row.messageId = messageId ∧ row.state = .delivered

/-- A retry that commits does not find the message delivered, unless it leaves the state alone because
it had read it as pending. -/
def RetriesInTime (w : ExchangeWorld) (_ : ℕ) (l : ExchangeTransaction) : Prop :=
  ∀ read, l = .retryRead read → read.state = .pending ∨
    ∀ row ∈ w.committed.outbox, row.messageId = read.messageId → row.state ≠ .delivered

/-! ## One step -/

section Step
variable {settings : WorkerSettings} {isoformat : Instant → String} {answers : Answering}
  {w : ExchangeWorld} {i : ℕ} {l : ExchangeTransaction} {x : Exchange}
  {l' : Option ExchangeTransaction}

/-- The row of a message that was stored as delivered. -/
theorem DeliveredTerminal.state (h : DeliveredTerminal w.committed) (hsound : RowsSound w.committed)
    {row : OutboxRow} (hmem : row ∈ w.committed.outbox)
    (hstored : .stored row.messageId .delivered ∈ w.committed.history) : row.state = .delivered := by
  obtain ⟨found, hfound, hid, hstate⟩ := h.rows _ hstored
  rwa [eq_of_nodup_map hsound.ids hfound hmem hid] at hstate

/-- A commit that stores a row adds the event of its state. -/
theorem DeliveredTerminal.stores (h : DeliveredTerminal w.committed) (row : OutboxRow)
    {rows : List OutboxRow}
    (hbefore : .stored row.messageId .delivered ∈ w.committed.history → row.state = .delivered)
    (hrow : row ∈ rows)
    (hothers : ∀ other ∈ w.committed.outbox, other.messageId ≠ row.messageId → other ∈ rows) :
    DeliveredTerminal { w.committed with
      outbox := rows, history := w.committed.history ++ [.stored row.messageId row.state] } := by
  constructor
  · show (w.committed.history ++ [_]).Pairwise _
    rw [List.pairwise_append]
    refine ⟨h.history, List.pairwise_singleton _ _, fun a ha b hb => ?_⟩
    rw [List.mem_singleton.mp hb]
    rintro ⟨messageId, rfl, heq | ⟨state, hstate, heq⟩⟩
    · cases heq
    · cases heq
      exact hstate (hbefore ha)
  · intro messageId hmem
    rcases List.mem_append.mp hmem with hin | hnew
    · obtain ⟨other, hother, hid, hstate⟩ := h.rows messageId hin
      by_cases hsame : other.messageId = row.messageId
      · exact ⟨row, hrow, hsame.symm.trans hid, hbefore (by rwa [← hsame, hid])⟩
      · exact ⟨other, hothers other hother hsame, hid, hstate⟩
    · have heq := List.mem_singleton.mp hnew
      simp only [OutboxEvent.stored.injEq] at heq
      exact ⟨row, hrow, heq.1.symm, heq.2.symm⟩

theorem terminal_commits (hsound : RowsSound w.committed) (hholds : HoldsRow w.committed l)
    (h : DeliveredTerminal w.committed) (hintime : RetriesInTime w i l)
    (hcommit : ExchangeCommits settings isoformat w i l x l') : DeliveredTerminal x := by
  cases hcommit with
  | releases result hvalid hfresh =>
    refine h.stores (releaseRow result w.committed.clock) (fun hmem => ?_)
      (List.mem_append_right _ (List.mem_singleton.mpr rfl))
      fun other hother _ => List.mem_append_left _ hother
    obtain ⟨row, hrow, hid, -⟩ := h.rows _ hmem
    exact absurd hid (fresh_of_findRow hfresh row hrow)
  | posts row =>
    obtain ⟨hmem, hstate⟩ := hholds row rfl
    refine ⟨?_, ?_⟩
    · show (w.committed.history ++ [_]).Pairwise _
      rw [List.pairwise_append]
      refine ⟨h.history, List.pairwise_singleton _ _, fun a ha b hb => ?_⟩
      rw [List.mem_singleton.mp hb]
      rintro ⟨messageId, rfl, heq | ⟨state, -, heq⟩⟩
      · cases heq
        exact hstate (h.state hsound hmem ha)
      · cases heq
    · intro messageId hin
      rcases List.mem_append.mp hin with hold | hlast
      · exact h.rows messageId hold
      · cases List.mem_singleton.mp hlast
  | settles row row' reaction entry alert healthy hhandle =>
    obtain ⟨hmem, hstate⟩ := hholds row rfl
    have hid : row'.messageId = row.messageId := (settles_of_handle hhandle).1.messageId
    refine h.stores row' (fun hin => ?_) (mem_saveRow_self hmem hid)
      fun other hother hne => mem_saveRow_other hother hne
    exact absurd (h.state hsound hmem (hid ▸ hin)) hstate
  | retries read row hfind hfree =>
    obtain ⟨hmem, hid⟩ := mem_of_findRow hfind
    refine h.stores (retryWrite read w.committed.clock row) (fun hin => ?_)
      (mem_saveRow_self hmem rfl) fun other hother hne => mem_saveRow_other hother hne
    have hdelivered := h.state hsound hmem hin
    rcases hintime read rfl with hpending | hopen
    · show (if read.state = .pending then row.state else .pending) = .delivered
      rw [if_pos hpending]
      exact hdelivered
    · exact absurd hdelivered (hopen row hmem hid)
  | _ => exact ⟨h.history, h.rows⟩

end Step

/-! ## Every run -/

abbrev TerminalHeld : ExchangeWorld → Prop :=
  Held (fun x => RowsSound x ∧ DeliveredTerminal x) HoldsRow RowsApart

theorem terminalHeld_step {settings : WorkerSettings} {isoformat : Instant → String}
    {answers : Answering} {w w' : ExchangeWorld} (h : TerminalHeld w)
    (hstep : ((exchangeProtocol settings isoformat answers).restrict RetriesInTime).Step w w') :
    TerminalHeld w' := by
  refine held_step rowsApart_symm (fun x l _ hl => holdsRow_begins hl) ?_ ?_ h hstep
  · intro w i l m hw running hmove
    have hmoves : ExchangeMoves answers w i l m := hmove
    exact ⟨holdsRow_moves (hw.each i l running) hmoves,
      rowsApart_moves (hw.pairs i l running) hmoves⟩
  · intro w i l x l' hw running hcommit
    have hcommits : ExchangeCommits settings isoformat w i l x l' := hcommit.1
    have hown := hw.each i l running
    have hpairs := hw.pairs i l running
    have hsound := rowsSound_writes hw.shared.1 (writes_commits hown hcommits)
    have hterminal := terminal_commits hw.shared.1 hown hw.shared.2 hcommit.2 hcommits
    refine ⟨⟨⟨hsound.ids, hsound.released⟩, hterminal⟩, holdsRow_commits hpairs hw.each hown hcommits,
      fun m hm => ?_⟩
    subst hm
    exact holdsRow_next hown hpairs hcommits

/-- In every run whose retries come in time, whatever the ERP does, a message that is stored as
delivered is never stored otherwise and never sent again. -/
theorem delivered_is_terminal (settings : WorkerSettings) (isoformat : Instant → String)
    (answers : Answering) {start : Exchange} (hstart : start.Empty) {w : ExchangeWorld}
    (h : ((exchangeProtocol settings isoformat answers).restrict RetriesInTime).Reachable
      (World.quiet start) w) : DeliveredTerminal w.committed := by
  have hempty : DeliveredTerminal start := by
    constructor
    · simp [hstart.history]
    · simp [hstart.history]
  have hheld := invariant (P := TerminalHeld) (fun _ _ hw hstep => terminalHeld_step hw hstep)
    (held_quiet ⟨rowsSound_empty hstart, hempty⟩) h
  exact hheld.shared.2

/-! ## A message that is retried -/

def lateResult : QualityResultInput :=
  ⟨"QR-1", "item-1", "2", "1", "confirmed", "RELEASED", "NONE", "2026-09-25T10:00:00+00:00"⟩

def plainWorker : WorkerSettings := { jsonb := fun _ => true }

/-- The message after its first attempt timed out, when it is due again. -/
def timedOutRow : OutboxRow :=
  { (releaseRow lateResult 0) with
    state := .retrying, attempts := 1, lastError := some "ReadTimeout", nextAttemptAt := 2000000 }

def timedOut : Exchange where
  clock := 2000000
  outbox := [timedOutRow]
  posts := [lateResult.dump]
  history := [.stored "QR-1" .pending, .sent "QR-1", .stored "QR-1" .retrying]

def acknowledgement : Json := .obj [("message_id", .str "QR-1"), ("status", .str "ACK")]

def plainExchange : Protocol Exchange ExchangeTransaction :=
  exchangeProtocol plainWorker (fun _ => "") anyErp

theorem timedOut_reachable {C : ExchangeWorld → ℕ → ExchangeTransaction → Prop}
    (hallows : ∀ w i l, (∀ read, l ≠ .retryRead read) → C w i l) :
    (plainExchange.restrict C).Reachable (World.quiet { clock := 0 }) (World.quiet timedOut) := by
  have hbegins := alone_begins (p := plainExchange.restrict C) { clock := 0 } (.releases lateResult)
  have hreleased := alone_commits hbegins ⟨.releases lateResult (by decide) rfl, hallows _ _ _ nofun⟩
  have hworks := hreleased.trans (alone_begins _ .works)
  have hpicks := alone_moves hworks (.picks (releaseRow lateResult 0) (List.mem_singleton.mpr rfl) rfl
    (others_alone _ _ _) fun other hother _ _ =>
      (congrArg OutboxRow.createdAt (List.mem_singleton.mp hother)).ge)
  have hposts := alone_advances hpicks ⟨.posts (releaseRow lateResult 0), hallows _ _ _ nofun⟩
  have hmeets := alone_moves hposts (.meets (releaseRow lateResult 0) 0 (.timeout "ReadTimeout") trivial)
  have hsettles := alone_commits hmeets ⟨.settles _ _ _ _ _ _ rfl, hallows _ _ _ nofun⟩
  have hwaits := hsettles.trans (alone_begins _ (.waits 2000000))
  have hlater := alone_commits hwaits ⟨.waits 2000000 (by decide), hallows _ _ _ nofun⟩
  exact hlater

def retriedRow : OutboxRow := retryWrite timedOutRow 2000000 timedOutRow

/-- The message is retried by hand and delivered. -/
def deliveredMessage : Exchange where
  clock := 2000000
  outbox := [{ retriedRow.attempt with state := .delivered, deliveredAt := some 2000000, lastError := none }]
  posts := [lateResult.dump, lateResult.dump]
  history := timedOut.history ++ [.stored "QR-1" .pending, .sent "QR-1", .stored "QR-1" .delivered]

theorem delivered_is_terminal_retried : DeliveredTerminal deliveredMessage := by
  have hallows : ∀ w i l, (∀ read, l ≠ .retryRead read) → RetriesInTime w i l :=
    fun _ _ _ hother read heq => absurd heq (hother read)
  have hretries := (timedOut_reachable hallows).trans (alone_begins timedOut (.retries "QR-1"))
  have hreads := alone_moves hretries (.retryReads "QR-1" timedOutRow rfl (by decide))
  have hintime : RetriesInTime (alone timedOut (.retryRead timedOutRow)) 0 (.retryRead timedOutRow) := by
    refine fun read _ => .inr fun row hrow _ => ?_
    rw [List.mem_singleton.mp hrow]
    decide
  have hretried := alone_commits hreads ⟨.retries timedOutRow timedOutRow rfl (others_alone _ _ _), hintime⟩
  have hworks := hretried.trans (alone_begins _ .works)
  have hpicks := alone_moves hworks (.picks retriedRow (List.mem_singleton.mpr rfl) rfl
    (others_alone _ _ _) fun other hother _ _ =>
      (congrArg OutboxRow.createdAt (List.mem_singleton.mp hother)).ge)
  have hposts := alone_advances hpicks ⟨.posts retriedRow, hallows _ _ _ nofun⟩
  have hmeets := alone_moves hposts (.meets retriedRow 1 (.responds 200 (.ok acknowledgement)) trivial)
  have hsettles := alone_commits hmeets ⟨.settles _ _ _ _ _ _ rfl, hallows _ _ _ nofun⟩
  exact delivered_is_terminal plainWorker (fun _ => "") anyErp (w := World.quiet deliveredMessage)
    ⟨rfl, rfl, rfl, rfl, rfl⟩ hsettles

/-! ## A late retry -/

/-- A retry that read the message as retrying commits after the delivery. -/
theorem retry_undoes_delivery : ¬ ∀ (settings : WorkerSettings) (isoformat : Instant → String)
    (answers : Answering) (start : Exchange), start.Empty →
    ∀ w, (exchangeProtocol settings isoformat answers).Reachable (World.quiet start) w →
      DeliveredTerminal w.committed := by
  intro hall
  have htimedOut := reachable_of_restrict (timedOut_reachable (C := fun _ _ _ => True) fun _ _ _ _ => trivial)
  have hretries := htimedOut.trans (alone_begins timedOut (.retries "QR-1"))
  have hreads := alone_moves hretries (.retryReads "QR-1" timedOutRow rfl (by decide))
  have hworks := both_begins hreads .works
  have hpicks := both_moves hworks (.picks timedOutRow (List.mem_singleton.mpr rfl) rfl
    (others_both nofun) fun other hother _ _ =>
      (congrArg OutboxRow.createdAt (List.mem_singleton.mp hother)).ge)
  have hposts := both_advances hpicks (.posts timedOutRow)
  have hmeets := both_moves hposts (.meets timedOutRow 1 (.responds 200 (.ok acknowledgement)) trivial)
  have hsettles := both_commits hmeets (.settles _ _ _ _ _ _ rfl)
  have hretried := alone_commits hsettles (.retries timedOutRow _ rfl (others_alone _ _ _))
  have hterminal := hall plainWorker (fun _ => "") anyErp { clock := 0 } ⟨rfl, rfl, rfl, rfl, rfl⟩ _
    hretried
  obtain ⟨row, hmem, -, hstate⟩ := hterminal.rows "QR-1" (by decide)
  rw [List.mem_singleton.mp hmem] at hstate
  exact absurd hstate (by decide)

end TraceQ.Properties
